import SnappCollector.Log.Machine

/-!
# What a step of the logging can do

`Step` lists the transitions one by one, with their guards; `step_sound` connects it to the step
function.
-/

namespace SnappCollector.Log

open CLib Machine

variable {ρ : Type*} {n : Nat}

inductive Step (pcre : Pcre ρ) (s : State ρ n) : Action n → State ρ n → Prop where
  | call (i : Fin n) (c : Call) (hplace : s.thread i = .idle) :
      Step pcre s (.call i c) (s.move i c.start)
  | cancel (i : Fin n) (m : Message) (priority : Nat) (installed : CStr)
      (hplace : s.thread i = .output m priority installed) :
      Step pcre s (.cancel i) (s.move i .idle)
  | syslog_ready : Step pcre s .syslog_ready { s with syslog_ready := true }
  | rdlock (i : Fin n) (m : Message) (hplace : s.thread i = .rdlock m)
      (hfree : s.pcre_log_lock.writer = none) :
      Step pcre s (.thread i)
        { s.move i (.check m) with
          pcre_log_lock := { s.pcre_log_lock with readers := s.pcre_log_lock.readers + 1 } }
  | check_none (i : Fin n) (m : Message) (hplace : s.thread i = .check m) (hre : s.log_re = none) :
      Step pcre s (.thread i) (s.move i (.rdunlock m m.priority s.installed))
  | check_some (i : Fin n) (m : Message) (id : Nat) (hplace : s.thread i = .check m)
      (hre : s.log_re = some id) : Step pcre s (.thread i) (s.move i (.exec m id))
  | exec (i : Fin n) (m : Message) (id : Nat) (re : ρ) (hplace : s.thread i = .exec m id)
      (hget : s.heap.get? id = some (.re re)) :
      Step pcre s (.thread i)
        (s.move i (.rdunlock m (if pcre.pcre_exec re (subject m.string) then LOG_ERR else m.priority)
          s.installed))
  | exec_fault (i : Fin n) (m : Message) (id : Nat) (hplace : s.thread i = .exec m id)
      (hget : ∀ re, s.heap.get? id ≠ some (.re re)) : Step pcre s (.thread i) (s.move i .fault)
  | rdunlock (i : Fin n) (m : Message) (priority : Nat) (installed : CStr)
      (hplace : s.thread i = .rdunlock m priority installed) :
      Step pcre s (.thread i)
        { s.move i (.output m priority installed) with
          pcre_log_lock := { s.pcre_log_lock with readers := s.pcre_log_lock.readers - 1 } }
  | output (i : Fin n) (m : Message) (priority : Nat) (installed : CStr)
      (hplace : s.thread i = .output m priority installed) :
      Step pcre s (.thread i)
        { s.move i .idle with
          printed := s.printed ++ [⟨m, installed,
            if s.writes priority then some (priority, check_string m.string) else none⟩] }
  | wrlock (i : Fin n) (arg : CStr) (hplace : s.thread i = .wrlock arg)
      (hfree : s.pcre_log_lock.writer = none) (hreaders : s.pcre_log_lock.readers = 0) :
      Step pcre s (.thread i)
        { s.move i (.free_re arg) with pcre_log_lock := { s.pcre_log_lock with writer := some i } }
  | free_re_none (i : Fin n) (arg : CStr) (hplace : s.thread i = .free_re arg)
      (hre : s.log_re = none) : Step pcre s (.thread i) (s.move i (.free_extra arg))
  | free_re (i : Fin n) (arg : CStr) (id : Nat) (heap : Heap (Block ρ))
      (hplace : s.thread i = .free_re arg) (hre : s.log_re = some id)
      (hfree : s.heap.free? id = some heap) :
      Step pcre s (.thread i) { s.move i (.null_re arg) with heap }
  | free_re_fault (i : Fin n) (arg : CStr) (id : Nat) (hplace : s.thread i = .free_re arg)
      (hre : s.log_re = some id) (hfree : s.heap.free? id = none) :
      Step pcre s (.thread i) (s.move i .fault)
  | null_re (i : Fin n) (arg : CStr) (hplace : s.thread i = .null_re arg) :
      Step pcre s (.thread i) { s.move i (.free_extra arg) with log_re := none }
  | free_extra_none (i : Fin n) (arg : CStr) (hplace : s.thread i = .free_extra arg)
      (hextra : s.log_re_extra = none) : Step pcre s (.thread i) (s.move i (.compile arg))
  | free_extra (i : Fin n) (arg : CStr) (id : Nat) (heap : Heap (Block ρ))
      (hplace : s.thread i = .free_extra arg) (hextra : s.log_re_extra = some id)
      (hfree : s.heap.free? id = some heap) :
      Step pcre s (.thread i) { s.move i (.null_extra arg) with heap }
  | free_extra_fault (i : Fin n) (arg : CStr) (id : Nat) (hplace : s.thread i = .free_extra arg)
      (hextra : s.log_re_extra = some id) (hfree : s.heap.free? id = none) :
      Step pcre s (.thread i) (s.move i .fault)
  | null_extra (i : Fin n) (arg : CStr) (hplace : s.thread i = .null_extra arg) :
      Step pcre s (.thread i) { s.move i (.compile arg) with log_re_extra := none }
  | compile_short (i : Fin n) (arg : CStr) (hplace : s.thread i = .compile arg)
      (harg : ¬2 ≤ arg.length) :
      Step pcre s (.thread i) { s.move i (.wrunlock true) with installed := arg }
  | compile_error (i : Fin n) (arg : CStr) (hplace : s.thread i = .compile arg)
      (harg : 2 ≤ arg.length) (hcompile : pcre.pcre_compile arg = none) :
      Step pcre s (.thread i) { s.move i (.wrunlock false) with log_re := none, installed := arg }
  | compile (i : Fin n) (arg : CStr) (re : ρ) (hplace : s.thread i = .compile arg)
      (harg : 2 ≤ arg.length) (hcompile : pcre.pcre_compile arg = some re) :
      Step pcre s (.thread i)
        { s.move i .study with
          log_re := some s.heap.next, heap := s.heap.alloc (.re re), installed := arg }
  | study (i : Fin n) (re : ρ) (hplace : s.thread i = .study)
      (hre : s.log_re.bind s.heap.get? = some (.re re)) (hstudy : pcre.pcre_study re = true) :
      Step pcre s (.thread i)
        { s.move i (.wrunlock false) with
          log_re_extra := some s.heap.next, heap := s.heap.alloc .extra }
  | study_none (i : Fin n) (re : ρ) (hplace : s.thread i = .study)
      (hre : s.log_re.bind s.heap.get? = some (.re re)) (hstudy : ¬pcre.pcre_study re = true) :
      Step pcre s (.thread i) { s.move i (.wrunlock false) with log_re_extra := none }
  | study_fault (i : Fin n) (hplace : s.thread i = .study)
      (hre : ∀ re, s.log_re.bind s.heap.get? ≠ some (.re re)) :
      Step pcre s (.thread i) (s.move i .fault)
  | wrunlock (i : Fin n) (cleared_reg_exp : Bool) (hplace : s.thread i = .wrunlock cleared_reg_exp) :
      Step pcre s (.thread i)
        { s.move i (.rdlock ⟨LOG_NOTICE, (if cleared_reg_exp then "regexp disabled\n"
            else "After setting logregexp\n").toList⟩) with
          pcre_log_lock := { s.pcre_log_lock with writer := none } }
  | get_lock (i : Fin n) (hplace : s.thread i = .get_lock) (hfree : s.log_level_mutex = none) :
      Step pcre s (.thread i) { s.move i .get_read with log_level_mutex := some i }
  | get_read (i : Fin n) (hplace : s.thread i = .get_read) :
      Step pcre s (.thread i) (s.move i (.get_unlock s.log_level))
  | get_unlock (i : Fin n) (fvalue : Int) (hplace : s.thread i = .get_unlock fvalue) :
      Step pcre s (.thread i)
        { s.move i (.set_lock (fvalue + 1) (some ⟨LOG_NOTICE, "Got a SIGUSR1\n".toList⟩)) with
          log_level_mutex := none }
  | set_rejected (i : Fin n) (new_level : Int) (next : Option Message)
      (hplace : s.thread i = .set_lock new_level next) (hrange : new_level < 0 ∨ 8 ≤ new_level) :
      Step pcre s (.thread i) (s.move i (next_place next))
  | set_lock (i : Fin n) (new_level : Int) (next : Option Message)
      (hplace : s.thread i = .set_lock new_level next) (hrange : ¬(new_level < 0 ∨ 8 ≤ new_level))
      (hfree : s.log_level_mutex = none) :
      Step pcre s (.thread i)
        { s.move i (.set_level new_level next) with log_level_mutex := some i }
  | set_level (i : Fin n) (new_level : Int) (next : Option Message)
      (hplace : s.thread i = .set_level new_level next) :
      Step pcre s (.thread i) { s.move i (.set_mask new_level next) with log_level := new_level }
  | set_mask (i : Fin n) (new_level : Int) (next : Option Message)
      (hplace : s.thread i = .set_mask new_level next) :
      Step pcre s (.thread i)
        { s.move i (.set_unlock next) with logmask := LOG_UPTO new_level.toNat }
  | set_unlock (i : Fin n) (next : Option Message) (hplace : s.thread i = .set_unlock next) :
      Step pcre s (.thread i) { s.move i (next_place next) with log_level_mutex := none }

section Sound

variable {pcre : Pcre ρ} {s s' : State ρ n} {a : Action n} {i : Fin n}

theorem print_log_sound {place : Place} (hplace : s.thread i = place)
    (hprint : place.writing = false) (hlevel : place.inLevel = false)
    (h : threadStep pcre s i place = some s') : Step pcre s (.thread i) s' := by
  cases place with
  | rdlock m =>
      simp only [threadStep] at h
      split at h <;> cases h
      exact .rdlock i m hplace ‹_›
  | check m =>
      simp only [threadStep] at h
      split at h <;> cases h
      · exact .check_none i m hplace ‹_›
      · exact .check_some i m _ hplace ‹_›
  | exec m id =>
      simp only [threadStep] at h
      split at h <;> cases h
      · exact .exec i m id _ hplace ‹_›
      · exact .exec_fault i m id hplace ‹_›
  | rdunlock m priority installed =>
      cases h
      exact .rdunlock i m priority installed hplace
  | output m priority installed =>
      cases h
      exact .output i m priority installed hplace
  | wrlock arg =>
      simp only [threadStep] at h
      split at h
      next hfree =>
        cases h
        exact .wrlock i arg hplace hfree.1 hfree.2
      next => cases h
  | get_lock =>
      simp only [threadStep] at h
      split at h <;> cases h
      exact .get_lock i hplace ‹_›
  | set_lock new_level next =>
      simp only [threadStep] at h
      split at h
      · cases h
        exact .set_rejected i new_level next hplace ‹_›
      · split at h <;> cases h
        exact .set_lock i new_level next hplace ‹_› ‹_›
  | idle | fault => cases h
  | free_re | null_re | free_extra | null_extra | compile | study | wrunlock => cases hprint
  | get_read | get_unlock | set_level | set_mask | set_unlock => cases hlevel

theorem do_regexp_sound {place : Place} (hplace : s.thread i = place)
    (hwriting : place.writing = true) (h : threadStep pcre s i place = some s') :
    Step pcre s (.thread i) s' := by
  cases place with
  | free_re arg =>
      simp only [threadStep] at h
      split at h
      · cases h
        exact .free_re_none i arg hplace ‹_›
      · split at h <;> cases h
        · exact .free_re i arg _ _ hplace ‹_› ‹_›
        · exact .free_re_fault i arg _ hplace ‹_› ‹_›
  | null_re arg =>
      cases h
      exact .null_re i arg hplace
  | free_extra arg =>
      simp only [threadStep] at h
      split at h
      · cases h
        exact .free_extra_none i arg hplace ‹_›
      · split at h <;> cases h
        · exact .free_extra i arg _ _ hplace ‹_› ‹_›
        · exact .free_extra_fault i arg _ hplace ‹_› ‹_›
  | null_extra arg =>
      cases h
      exact .null_extra i arg hplace
  | compile arg =>
      simp only [threadStep] at h
      split at h
      · split at h <;> cases h
        · exact .compile_error i arg hplace ‹_› ‹_›
        · exact .compile i arg _ hplace ‹_› ‹_›
      · cases h
        exact .compile_short i arg hplace ‹_›
  | study =>
      simp only [threadStep] at h
      split at h
      · split at h <;> cases h
        · exact .study i _ hplace ‹_› ‹_›
        · exact .study_none i _ hplace ‹_› ‹_›
      · cases h
        exact .study_fault i hplace ‹_›
  | wrunlock cleared_reg_exp =>
      cases h
      exact .wrunlock i cleared_reg_exp hplace
  | _ => cases hwriting

theorem log_level_sound {place : Place} (hplace : s.thread i = place)
    (hlevel : place.inLevel = true) (h : threadStep pcre s i place = some s') :
    Step pcre s (.thread i) s' := by
  cases place with
  | get_read =>
      cases h
      exact .get_read i hplace
  | get_unlock fvalue =>
      cases h
      exact .get_unlock i fvalue hplace
  | set_level new_level next =>
      cases h
      exact .set_level i new_level next hplace
  | set_mask new_level next =>
      cases h
      exact .set_mask i new_level next hplace
  | set_unlock next =>
      cases h
      exact .set_unlock i next hplace
  | _ => cases hlevel

theorem step_sound (h : step pcre s a = some s') : Step pcre s a s' := by
  cases a with
  | call i c =>
      simp only [step] at h
      split at h <;> cases h
      exact .call i c ‹_›
  | thread i =>
      cases hwriting : (s.thread i).writing with
      | true => exact do_regexp_sound rfl hwriting h
      | false =>
          cases hlevel : (s.thread i).inLevel with
          | true => exact log_level_sound rfl hlevel h
          | false => exact print_log_sound rfl hwriting hlevel h
  | cancel i =>
      simp only [step] at h
      split at h <;> cases h
      exact .cancel i _ _ _ ‹_›
  | syslog_ready =>
      cases h
      exact .syslog_ready

end Sound

end SnappCollector.Log
