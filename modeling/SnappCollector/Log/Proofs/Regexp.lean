import SnappCollector.Log.Steps
import SnappCollector.Machine.Runs

/-!
# The regular expression and its memory

`do_regexp` frees what `log_re` and `log_re_extra` point to and sets both anew, in several
steps.  Nobody sees the steps in between, nothing is freed twice or read after it was freed, and
no more than what the two point to is ever allocated.
-/

namespace SnappCollector.Log

open CLib Machine

variable {ρ : Type*} {n : Nat}

/-! ## What is shared under the lock -/

structure Shared (ρ : Type*) where
  log_re : Option Nat
  log_re_extra : Option Nat
  heap : Heap (Block ρ)
  installed : CStr

def State.shared (s : State ρ n) : Shared ρ :=
  ⟨s.log_re, s.log_re_extra, s.heap, s.installed⟩

def State.writer (s : State ρ n) : Option Place := s.pcre_log_lock.writer.map s.thread

/-- `log_re` points to the expression that the last argument gives, if it gives one. -/
structure Current (pcre : Pcre ρ) (r : Shared ρ) : Prop where
  none : r.log_re = none → compiled pcre r.installed = none
  some : ∀ id, r.log_re = some id →
    ∃ re, r.heap.get? id = some (.re re) ∧ compiled pcre r.installed = some re

/-- What is allocated, for each place of the writer. -/
def Allocated (pcre : Pcre ρ) (r : Shared ρ) : Option Place → Prop
  | some (.null_re _) => r.heap.Owns r.log_re_extra.toList
  | some (.free_extra _) => r.log_re = none ∧ r.heap.Owns r.log_re_extra.toList
  | some (.null_extra _) => r.log_re = none ∧ r.heap.Owns []
  | some (.compile _) => r.log_re = none ∧ r.log_re_extra = none ∧ r.heap.Owns []
  | some .study =>
      Current pcre r ∧ r.log_re ≠ none ∧ r.log_re_extra = none ∧ r.heap.Owns r.log_re.toList
  | _ => Current pcre r ∧ r.heap.Owns (r.log_re.toList ++ r.log_re_extra.toList)

theorem Allocated.pointed {pcre : Pcre ρ} {r : Shared ρ} {writer : Option Place}
    (h : Allocated pcre r writer) {id : Nat} (hid : (r.heap.get? id).isSome = true) :
    r.log_re = some id ∨ r.log_re_extra = some id := by
  have hboth : ∀ {p q : Option Nat}, r.heap.Owns (p.toList ++ q.toList) →
      p = some id ∨ q = some id := by
    intro p q howns
    simpa using (howns.mem_iff id).mpr hid
  have hextra : r.heap.Owns r.log_re_extra.toList → r.log_re_extra = some id := by
    intro howns
    simpa using (howns.mem_iff id).mpr hid
  have hnone : ¬r.heap.Owns [] := by
    intro howns
    simpa using (howns.mem_iff id).mpr hid
  unfold Allocated at h
  split at h
  · exact .inr (hextra h)
  · exact .inr (hextra h.2)
  · exact absurd h.2 hnone
  · exact absurd h.2.2 hnone
  · obtain ⟨-, -, hnil, howns⟩ := h
    refine hboth ?_
    rw [hnil]
    simpa using howns
  · exact hboth h.2

structure RegexpInv (pcre : Pcre ρ) (s : State ρ n) : Prop where
  lock : RwGuards s.pcre_log_lock Place.reading Place.writing s.thread
  allocated : Allocated pcre s.shared s.writer
  exec : ∀ i m id, s.thread i = .exec m id → s.log_re = some id
  fault : ∀ i, s.thread i ≠ .fault

theorem regexpInv_init (pcre : Pcre ρ) : RegexpInv pcre (State.init ρ n) where
  lock := .init (fun _ => rfl) fun _ => rfl
  allocated := ⟨⟨fun _ => rfl, fun id h => by cases h⟩, .empty⟩
  exec i m id h := by cases h
  fault i h := by cases h

section Moves

variable {pcre : Pcre ρ} {s s' : State ρ n} {i : Fin n} {place : Place}

theorem writer_of_writing (h : RegexpInv pcre s) (hi : (s.thread i).writing = true) :
    s.writer = some (s.thread i) := by
  rw [State.writer, (h.lock.writer i).mp hi, Option.map_some]

theorem writer_of_not_writing (h : RegexpInv pcre s) (hi : (s.thread i).writing = false)
    (hthread : s'.thread = Function.update s.thread i place)
    (hwriter : s'.pcre_log_lock.writer = s.pcre_log_lock.writer) : s'.writer = s.writer := by
  rw [State.writer, State.writer, hwriter, hthread]
  cases howner : s.pcre_log_lock.writer with
  | none => rfl
  | some j =>
      have hne : j ≠ i := by
        rintro rfl
        rw [(h.lock.writer j).mpr howner] at hi
        cases hi
      rw [Option.map_some, Option.map_some, Function.update_of_ne hne]

theorem RegexpInv.move (h : RegexpInv pcre s)
    (hthread : s'.thread = Function.update s.thread i place) (hshared : s'.shared = s.shared)
    (hlock : RwGuards s'.pcre_log_lock Place.reading Place.writing s'.thread)
    (hallocated : Allocated pcre s.shared s'.writer)
    (hexec : ∀ m id, place = .exec m id → s.log_re = some id) (hfault : place ≠ .fault) :
    RegexpInv pcre s' where
  lock := hlock
  allocated := by rwa [hshared]
  exec j m id hj := by
    have hre : s'.log_re = s.log_re := congrArg Shared.log_re hshared
    rw [hre]
    rw [hthread] at hj
    rcases update_cases s.thread i place j with ⟨-, hnew⟩ | hold
    · exact hexec m id (hnew ▸ hj)
    · exact h.exec j m id (hold ▸ hj)
  fault j hj := by
    rw [hthread] at hj
    rcases update_cases s.thread i place j with ⟨-, hnew⟩ | hold
    · exact hfault (hnew ▸ hj)
    · exact h.fault j (hold ▸ hj)

theorem RegexpInv.other (h : RegexpInv pcre s)
    (hthread : s'.thread = Function.update s.thread i place) (hshared : s'.shared = s.shared)
    (hlock : RwGuards s'.pcre_log_lock Place.reading Place.writing s'.thread)
    (hwriter : s'.pcre_log_lock.writer = s.pcre_log_lock.writer)
    (hbefore : (s.thread i).writing = false)
    (hexec : ∀ m id, place = .exec m id → s.log_re = some id) (hfault : place ≠ .fault) :
    RegexpInv pcre s' := by
  refine h.move hthread hshared hlock ?_ hexec hfault
  rw [writer_of_not_writing h hbefore hthread hwriter]
  exact h.allocated

theorem RegexpInv.outside (h : RegexpInv pcre s)
    (hthread : s'.thread = Function.update s.thread i place) (hshared : s'.shared = s.shared)
    (hlock : s'.pcre_log_lock = s.pcre_log_lock)
    (hbefore : (s.thread i).reading = false ∧ (s.thread i).writing = false)
    (hafter : place.reading = false ∧ place.writing = false) (hfault : place ≠ .fault) :
    RegexpInv pcre s' := by
  refine h.other hthread hshared ?_ (by rw [hlock]) hbefore.2 (fun m id heq => ?_) hfault
  · rw [hlock, hthread]
    exact h.lock.move (by rw [hbefore.1, hafter.1]) (by rw [hbefore.2, hafter.2])
  · rw [heq] at hafter
    cases hafter.1

theorem writing_of_reading {p : Place} (h : p.reading = true) : p.writing = false := by
  cases p <;> first | rfl | cases h

theorem reading_of_writing {p : Place} (h : p.writing = true) : p.reading = false := by
  cases p <;> first | rfl | cases h

theorem RegexpInv.read (h : RegexpInv pcre s) (hbefore : (s.thread i).reading = true)
    (hafter : place.reading = true) (hexec : ∀ m id, place = .exec m id → s.log_re = some id) :
    RegexpInv pcre (s.move i place) := by
  have hwriting := writing_of_reading hbefore
  refine h.other rfl rfl (h.lock.move ?_ ?_) rfl hwriting hexec ?_
  · rw [hbefore, hafter]
  · rw [hwriting, writing_of_reading hafter]
  · rintro rfl
    cases hafter

theorem RegexpInv.writes (h : RegexpInv pcre s)
    (hthread : s'.thread = Function.update s.thread i place) (hafter : place.writing = true)
    (hlock : RwGuards s'.pcre_log_lock Place.reading Place.writing s'.thread)
    (hallocated : Allocated pcre s'.shared place) : RegexpInv pcre s' := by
  have hplace : s'.thread i = place := by rw [hthread, Function.update_self]
  have hin : (s'.thread i).writing = true := by rw [hplace, hafter]
  refine ⟨hlock, ?_, fun j m id hj => ?_, fun j hj => ?_⟩
  · rw [State.writer, (hlock.writer i).mp hin, Option.map_some, hplace]
    exact hallocated
  · have hout := hlock.not_reading hin j
    rw [hj] at hout
    cases hout
  · rw [hthread] at hj
    rcases update_cases s.thread i place j with ⟨-, hnew⟩ | hold
    · rw [hnew] at hj
      rw [hj] at hafter
      cases hafter
    · exact h.fault j (hold ▸ hj)

theorem RegexpInv.write (h : RegexpInv pcre s) (hbefore : (s.thread i).writing = true)
    (hafter : place.writing = true) (hthread : s'.thread = Function.update s.thread i place)
    (hlock : s'.pcre_log_lock = s.pcre_log_lock) (hallocated : Allocated pcre s'.shared place) :
    RegexpInv pcre s' := by
  refine h.writes hthread hafter ?_ hallocated
  rw [hlock, hthread]
  exact h.lock.move (by rw [reading_of_writing hbefore, reading_of_writing hafter])
    (by rw [hbefore, hafter])

end Moves

section Step

variable {pcre : Pcre ρ} {s s' : State ρ n} {a : Action n} {i : Fin n}

theorem allocated_of_place (h : RegexpInv pcre s) {place : Place} (hplace : s.thread i = place)
    (hwriting : place.writing = true) : Allocated pcre s.shared place := by
  have hallocated := h.allocated
  rwa [writer_of_writing h (hplace ▸ hwriting), hplace] at hallocated

/-- What a reader finds: the writer, if there were one, would be elsewhere. -/
theorem current_of_reading (h : RegexpInv pcre s) (hi : (s.thread i).reading = true) :
    Current pcre s.shared := by
  have hallocated := h.allocated
  rw [State.writer, h.lock.writer_eq_none hi] at hallocated
  exact hallocated.1

theorem not_fault_of_exec (h : RegexpInv pcre s) {m : Message} {id : Nat}
    (hplace : s.thread i = .exec m id) : ∃ re, s.heap.get? id = some (.re re) := by
  have hcurrent := current_of_reading h (i := i) (by rw [hplace]; rfl)
  obtain ⟨re, hget, -⟩ := hcurrent.some id (h.exec i m id hplace)
  exact ⟨re, hget⟩

theorem next_place_outside (next : Option Message) :
    (next_place next).reading = false ∧ (next_place next).writing = false ∧
      next_place next ≠ .fault := by
  cases next <;> exact ⟨rfl, rfl, by simp [next_place]⟩

theorem regexpInv_step (h : RegexpInv pcre s) (hs : Step pcre s a s') : RegexpInv pcre s' := by
  cases hs with
  | call i c hplace =>
      refine h.outside (i := i) rfl rfl rfl ?_ ?_ ?_
      · rw [hplace]
        exact ⟨rfl, rfl⟩
      · cases c <;> exact ⟨rfl, rfl⟩
      · cases c <;> simp [Call.start]
  | cancel i m priority installed hplace =>
      exact h.outside rfl rfl rfl (by rw [hplace]; exact ⟨rfl, rfl⟩) ⟨rfl, rfl⟩ (by simp)
  | syslog_ready => exact ⟨h.lock, h.allocated, h.exec, h.fault⟩
  | rdlock i m hplace hfree =>
      refine h.other rfl rfl ?_ rfl (by rw [hplace]; rfl) (by simp) (by simp)
      exact h.lock.rdlock hfree (by rw [hplace]; rfl) rfl (by rw [hplace]; rfl)
  | check_none i m hplace hre => exact h.read (by rw [hplace]; rfl) rfl (by simp)
  | check_some i m id hplace hre =>
      refine h.read (by rw [hplace]; rfl) rfl fun m' id' heq => ?_
      cases heq
      exact hre
  | exec i m id re hplace hget => exact h.read (by rw [hplace]; rfl) rfl (by simp)
  | exec_fault i m id hplace hget =>
      obtain ⟨re, hre⟩ := not_fault_of_exec h hplace
      exact absurd hre (hget re)
  | rdunlock i m priority installed hplace =>
      refine h.other rfl rfl ?_ rfl (by rw [hplace]; rfl) (by simp) (by simp)
      exact h.lock.rdunlock (by rw [hplace]; rfl) rfl (by rw [hplace]; rfl)
  | output i m priority installed hplace =>
      exact h.outside rfl rfl rfl (by rw [hplace]; exact ⟨rfl, rfl⟩) ⟨rfl, rfl⟩ (by simp)
  | wrlock i arg hplace hfree hreaders =>
      refine h.writes rfl rfl (h.lock.wrlock hfree hreaders rfl (by rw [hplace]; rfl)) ?_
      have hallocated := h.allocated
      rw [State.writer, hfree] at hallocated
      exact hallocated
  | free_re_none i arg hplace hre =>
      have howns := (allocated_of_place h hplace rfl).2
      refine h.write (by rw [hplace]; rfl) rfl rfl rfl ⟨hre, ?_⟩
      rwa [State.shared, hre] at howns
  | free_re i arg id heap hplace hre hfree =>
      have howns := (allocated_of_place h hplace rfl).2
      rw [State.shared, hre] at howns
      exact h.write (by rw [hplace]; rfl) rfl rfl rfl (howns.of_free hfree)
  | free_re_fault i arg id hplace hre hfree =>
      have howns := (allocated_of_place h hplace rfl).2
      rw [State.shared, hre] at howns
      exact absurd hfree howns.free_ne_none
  | null_re i arg hplace =>
      have howns := allocated_of_place h hplace rfl
      exact h.write (by rw [hplace]; rfl) rfl rfl rfl ⟨rfl, howns⟩
  | free_extra_none i arg hplace hextra =>
      obtain ⟨hre, howns⟩ := allocated_of_place h hplace rfl
      rw [State.shared, hextra] at howns
      exact h.write (by rw [hplace]; rfl) rfl rfl rfl ⟨hre, hextra, howns⟩
  | free_extra i arg id heap hplace hextra hfree =>
      obtain ⟨hre, howns⟩ := allocated_of_place h hplace rfl
      rw [State.shared, hextra] at howns
      exact h.write (by rw [hplace]; rfl) rfl rfl rfl ⟨hre, howns.of_free hfree⟩
  | free_extra_fault i arg id hplace hextra hfree =>
      have howns := (allocated_of_place h hplace rfl).2
      rw [State.shared, hextra] at howns
      exact absurd hfree howns.free_ne_none
  | null_extra i arg hplace =>
      obtain ⟨hre, howns⟩ := allocated_of_place h hplace rfl
      exact h.write (by rw [hplace]; rfl) rfl rfl rfl ⟨hre, rfl, howns⟩
  | compile_short i arg hplace harg =>
      obtain ⟨hre, hextra, howns⟩ := allocated_of_place h hplace rfl
      have hnone : compiled pcre arg = none := if_neg harg
      refine h.write (by rw [hplace]; rfl) rfl rfl rfl ⟨⟨fun _ => hnone, fun id hid => ?_⟩, ?_⟩
      · cases hre.symm.trans hid
      · simp only [State.shared, State.move] at hre hextra howns ⊢
        rwa [hre, hextra]
  | compile_error i arg hplace harg hcompile =>
      obtain ⟨-, hextra, howns⟩ := allocated_of_place h hplace rfl
      have hnone : compiled pcre arg = none := by rw [compiled, if_pos harg, hcompile]
      refine h.write (by rw [hplace]; rfl) rfl rfl rfl ⟨⟨fun _ => hnone, fun id hid => ?_⟩, ?_⟩
      · cases hid
      · simp only [State.shared, State.move] at hextra howns ⊢
        rwa [hextra]
  | compile i arg re hplace harg hcompile =>
      obtain ⟨-, hextra, howns⟩ := allocated_of_place h hplace rfl
      have hsome : compiled pcre arg = some re := by rw [compiled, if_pos harg, hcompile]
      refine h.write (by rw [hplace]; rfl) rfl rfl rfl
        ⟨⟨fun hid => ?_, fun id hid => ?_⟩, by simp [State.shared], hextra, howns.alloc _⟩
      · cases hid
      · cases hid
        exact ⟨re, Heap.get?_alloc_next _ _, hsome⟩
  | study i re hplace hre hstudy =>
      obtain ⟨hcurrent, -, -, howns⟩ := allocated_of_place h hplace rfl
      refine h.write (by rw [hplace]; rfl) rfl rfl rfl
        ⟨⟨hcurrent.none, fun id hid => ?_⟩, howns.alloc _⟩
      obtain ⟨re', hget, hcompiled⟩ := hcurrent.some id hid
      exact ⟨re', Heap.get?_alloc_of_some _ _ hget, hcompiled⟩
  | study_none i re hplace hre hstudy =>
      obtain ⟨hcurrent, -, -, howns⟩ := allocated_of_place h hplace rfl
      refine h.write (by rw [hplace]; rfl) rfl rfl rfl ⟨⟨hcurrent.none, hcurrent.some⟩, ?_⟩
      simpa [State.shared, State.move] using howns
  | study_fault i hplace hre =>
      obtain ⟨hcurrent, hsome, -, -⟩ := allocated_of_place h hplace rfl
      obtain ⟨id, hid⟩ := Option.ne_none_iff_exists'.mp hsome
      obtain ⟨re, hget, -⟩ := hcurrent.some id hid
      refine absurd ?_ (hre re)
      rw [show s.log_re = some id from hid]
      exact hget
  | wrunlock i cleared_reg_exp hplace =>
      have hallocated := allocated_of_place h hplace rfl
      refine h.move rfl rfl ?_ hallocated (by simp) (by simp)
      exact h.lock.wrunlock (by rw [hplace]; rfl) rfl (by rw [hplace]; rfl)
  | get_lock i hplace | get_read i hplace | get_unlock i _ hplace | set_lock i _ _ hplace
  | set_level i _ _ hplace | set_mask i _ _ hplace =>
      exact h.outside rfl rfl rfl (by rw [hplace]; exact ⟨rfl, rfl⟩) ⟨rfl, rfl⟩ (by simp)
  | set_rejected i _ next hplace | set_unlock i next hplace =>
      obtain ⟨hreading, hwriting, hfault⟩ := next_place_outside next
      exact h.outside rfl rfl rfl (by rw [hplace]; exact ⟨rfl, rfl⟩) ⟨hreading, hwriting⟩ hfault

theorem regexpInv_reachable (h : Reachable (step pcre) (State.init ρ n) s) : RegexpInv pcre s :=
  h.invariant (regexpInv_init pcre) fun _ _ _ hinv _ hs => regexpInv_step hinv (step_sound hs)

structure RegexpSafe (pcre : Pcre ρ) (s : State ρ n) : Prop where
  no_fault : ∀ i, s.thread i ≠ .fault
  alone : ∀ i j, (s.thread i).writing = true →
    (s.thread j).reading = true ∨ (s.thread j).writing = true → j = i
  owned : ∀ id, (s.heap.get? id).isSome = true → s.log_re = some id ∨ s.log_re_extra = some id
  current : ∀ i, (s.thread i).reading = true → Current pcre s.shared

/-- With any number of threads that log and set regular expressions, in every state reached:
who writes is alone, who reads finds the expression that the last call of `do_regexp` gave, no
block is freed twice or used after that, and none is lost. -/
theorem regexpSafe_of_reachable (h : Reachable (step pcre) (State.init ρ n) s) :
    RegexpSafe pcre s := by
  have hinv := regexpInv_reachable h
  refine ⟨hinv.fault, fun i j hi hj => ?_, fun id hid => ?_, fun i hi => current_of_reading hinv hi⟩
  · rcases hj with hreading | hwriting
    · rw [hinv.lock.not_reading hi j] at hreading
      cases hreading
    · exact hinv.lock.eq_of_writing hwriting hi
  · exact hinv.allocated.pointed hid

end Step

def textPcre : Pcre CStr := ⟨some, fun _ => true, fun re subject => decide (re <:+: subject)⟩

/-- The second expression is read while a third is waited for. -/
theorem regexpSafe_replaced :
    ∃ s : State CStr 3, s.log_re = some 2 ∧ (s.thread 1).reading = true ∧
      s.thread 2 = .wrlock "ef".toList ∧ RegexpSafe textPcre s := by
  obtain ⟨s, hrun, hre, hreading, hwaiting⟩ : ∃ s : State CStr 3,
      run (step textPcre) (State.init CStr 3)
        (.call 0 (.do_regexp "ab".toList) :: (List.replicate 11 (.thread 0) ++
          .call 0 (.do_regexp "cd".toList) :: (List.replicate 9 (.thread 0) ++
          [.call 1 (.print_log ⟨LOG_DEBUG, "cd".toList⟩), .thread 1, .thread 1,
            .call 2 (.do_regexp "ef".toList)]))) = some s ∧
        s.log_re = some 2 ∧ (s.thread 1).reading = true ∧ s.thread 2 = .wrlock "ef".toList :=
    ⟨_, rfl, rfl, rfl, rfl⟩
  exact ⟨s, hre, hreading, hwaiting, regexpSafe_of_reachable (Reachable.of_run hrun)⟩

end SnappCollector.Log
