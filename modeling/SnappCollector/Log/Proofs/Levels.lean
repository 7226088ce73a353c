import SnappCollector.Log.Proofs.Regexp
import SnappCollector.Machine.Mutex

/-!
# Which messages come through

The level is never below `LOG_NOTICE`, whatever the order of options and signals, and the mask of
syslog follows it.  So a message up to that priority is always written, and a message that
matches the regular expression in force is written as an error, whatever its priority.
-/

namespace SnappCollector.Log

open CLib Machine

variable {ρ : Type*} {n : Nat}

/-! ## The level -/

/-- Levels that `set_log_level` gets to see. -/
def Place.LevelOk : Place → Prop
  | .get_unlock fvalue => LOG_NOTICE ≤ fvalue ∧ fvalue ≤ LOG_DEBUG
  | .set_lock new_level _ => LOG_NOTICE ≤ new_level
  | .set_level new_level _ | .set_mask new_level _ => LOG_NOTICE ≤ new_level ∧ new_level ≤ LOG_DEBUG
  | _ => True

/-- Between the assignment and `setlogmask`. -/
def Place.changing : Place → Option Int
  | .set_mask new_level _ => some new_level
  | _ => none

structure LevelInv (s : State ρ n) : Prop where
  guards : Guards s.log_level_mutex fun i => (s.thread i).inLevel
  level : (LOG_NOTICE : Int) ≤ s.log_level ∧ s.log_level ≤ LOG_DEBUG
  logmask : ∃ level : Nat, LOG_NOTICE ≤ level ∧ level ≤ LOG_DEBUG ∧ s.logmask = LOG_UPTO level
  places : ∀ i, (s.thread i).LevelOk
  changing : ∀ i new_level, (s.thread i).changing = some new_level → s.log_level = new_level
  agree : (∀ i, (s.thread i).changing = none) → s.logmask = LOG_UPTO s.log_level.toNat

theorem levelInv_init : LevelInv (State.init ρ n) where
  guards i h := by cases h
  level := ⟨le_rfl, (by decide : (LOG_NOTICE : Int) ≤ LOG_DEBUG)⟩
  logmask := ⟨LOG_NOTICE, by decide, by decide, rfl⟩
  places i := trivial
  changing i new_level h := by cases h
  agree _ := rfl

section Moves

variable {s s' : State ρ n} {i : Fin n} {place : Place}

theorem inLevel_of_changing {p : Place} (h : p.changing ≠ none) : p.inLevel = true := by
  cases p <;> first | rfl | exact absurd rfl h

theorem next_place_level (next : Option Message) :
    (next_place next).inLevel = false ∧ (next_place next).LevelOk ∧
      (next_place next).changing = none := by
  cases next <;> exact ⟨rfl, trivial, rfl⟩

theorem LevelInv.places_update (h : LevelInv s) (hok : place.LevelOk) (j : Fin n) :
    (Function.update s.thread i place j).LevelOk := by
  rcases update_cases s.thread i place j with ⟨-, hnew⟩ | hold
  · rwa [hnew]
  · rw [hold]
    exact h.places j

theorem LevelInv.move (h : LevelInv s) (hthread : s'.thread = Function.update s.thread i place)
    (hlevel : s'.log_level = s.log_level) (hmask : s'.logmask = s.logmask)
    (hguards : Guards s'.log_level_mutex fun i => (s'.thread i).inLevel) (hok : place.LevelOk)
    (hbefore : (s.thread i).changing = none) (hafter : place.changing = none) : LevelInv s' where
  guards := hguards
  level := by rw [hlevel]; exact h.level
  logmask := by rw [hmask]; exact h.logmask
  places j := by
    rw [hthread]
    exact h.places_update hok j
  changing j new_level hj := by
    rw [hlevel]
    refine h.changing j new_level ?_
    rwa [hthread, update_congr Place.changing (by rw [hafter, hbefore])] at hj
  agree hnone := by
    rw [hmask, hlevel]
    refine h.agree fun j => ?_
    have hj := hnone j
    rwa [hthread, update_congr Place.changing (by rw [hafter, hbefore])] at hj

theorem LevelInv.outside (h : LevelInv s) (hthread : s'.thread = Function.update s.thread i place)
    (hlevel : s'.log_level = s.log_level) (hmask : s'.logmask = s.logmask)
    (hmutex : s'.log_level_mutex = s.log_level_mutex) (hbefore : (s.thread i).inLevel = false)
    (hafter : place.inLevel = false) (hok : place.LevelOk) : LevelInv s' := by
  have hnot : ∀ {p : Place}, p.inLevel = false → p.changing = none := by
    intro p hp
    by_contra hne
    rw [inLevel_of_changing hne] at hp
    cases hp
  refine h.move hthread hlevel hmask ?_ hok (hnot hbefore) (hnot hafter)
  rw [hmutex]
  refine h.guards.frame fun _ hj => ?_
  rwa [hthread, update_congr Place.inLevel (by rw [hafter, hbefore])] at hj

theorem LevelInv.acquire (h : LevelInv s) (hfree : s.log_level_mutex = none) :
    Guards (some i) fun j => (Function.update s.thread i place j).inLevel := by
  have hguards := h.guards
  rw [hfree] at hguards
  refine hguards.acquire fun j hj hin => ?_
  rwa [Function.update_of_ne hj] at hin

theorem LevelInv.inside (h : LevelInv s) (hbefore : (s.thread i).inLevel = true) :
    Guards s.log_level_mutex fun j => (Function.update s.thread i place j).inLevel :=
  h.guards.frame fun _ hj => update_imp (fun p : Place => p.inLevel = true) (fun _ => hbefore) hj

theorem LevelInv.release (h : LevelInv s) (hbefore : (s.thread i).inLevel = true)
    (hafter : place.inLevel = false) :
    Guards none fun j => (Function.update s.thread i place j).inLevel := by
  have hguards := h.guards
  rw [hguards i hbefore] at hguards
  refine hguards.release ?_ fun _ hj => ?_
  · rw [Function.update_self, hafter]
  · exact update_imp (fun p : Place => p.inLevel = true) (fun _ => hbefore) hj

/-- While thread `i` has the mutex, no other thread is about to set the mask. -/
theorem LevelInv.changing_update (h : LevelInv s) (hin : (s.thread i).inLevel = true) {j : Fin n}
    {level : Int} (hj : (Function.update s.thread i place j).changing = some level) :
    place.changing = some level := by
  by_cases hne : j = i
  · rwa [hne, Function.update_self] at hj
  · rw [Function.update_of_ne hne] at hj
    have hchanging : (s.thread j).inLevel = true := inLevel_of_changing (by simp [hj])
    exact absurd (h.guards.eq_of_inside hchanging hin) hne

end Moves

section Step

variable {pcre : Pcre ρ} {s s' : State ρ n} {a : Action n}

theorem levelInv_step (h : LevelInv s) (hs : Step pcre s a s') : LevelInv s' := by
  cases hs with
  | call i c hplace =>
      refine h.outside (i := i) rfl rfl rfl rfl (by rw [hplace]; rfl) ?_ ?_
      · cases c <;> rfl
      · cases c <;> simp [Call.start, Place.LevelOk, LOG_NOTICE, LOG_INFO, LOG_DEBUG]
  | syslog_ready => exact ⟨h.guards, h.level, h.logmask, h.places, h.changing, h.agree⟩
  | cancel i _ _ _ hplace | rdlock i _ hplace | check_none i _ hplace | check_some i _ _ hplace
  | exec i _ _ _ hplace | exec_fault i _ _ hplace | rdunlock i _ _ _ hplace
  | output i _ _ _ hplace | wrlock i _ hplace | free_re_none i _ hplace | free_re i _ _ _ hplace
  | free_re_fault i _ _ hplace | null_re i _ hplace | free_extra_none i _ hplace
  | free_extra i _ _ _ hplace | free_extra_fault i _ _ hplace | null_extra i _ hplace
  | compile_short i _ hplace | compile_error i _ hplace | compile i _ _ hplace | study i _ hplace
  | study_none i _ hplace | study_fault i hplace | wrunlock i _ hplace =>
      exact h.outside (i := i) rfl rfl rfl rfl (by rw [hplace]; rfl) rfl trivial
  | get_lock i hplace hfree =>
      exact h.move rfl rfl rfl (h.acquire hfree) trivial (by rw [hplace]; rfl) rfl
  | get_read i hplace =>
      refine h.move rfl rfl rfl ?_ h.level (by rw [hplace]; rfl) rfl
      exact h.inside (by rw [hplace]; rfl)
  | get_unlock i fvalue hplace =>
      have hlevel := h.places i
      rw [hplace] at hlevel
      refine h.move rfl rfl rfl (h.release (by rw [hplace]; rfl) rfl) ?_ (by rw [hplace]; rfl) rfl
      have hlow := hlevel.1
      simp only [Place.LevelOk]
      omega
  | set_rejected i new_level next hplace hrange =>
      obtain ⟨hout, hok, -⟩ := next_place_level next
      exact h.outside rfl rfl rfl rfl (by rw [hplace]; rfl) hout hok
  | set_lock i new_level next hplace hrange hfree =>
      have hlevel := h.places i
      rw [hplace] at hlevel
      refine h.move rfl rfl rfl (h.acquire hfree) ⟨hlevel, ?_⟩ (by rw [hplace]; rfl) rfl
      simp only [LOG_DEBUG]
      omega
  | set_level i new_level next hplace =>
      have hin : (s.thread i).inLevel = true := by rw [hplace]; rfl
      have hlevel := h.places i
      rw [hplace] at hlevel
      refine ⟨h.inside hin, hlevel, h.logmask, h.places_update hlevel, fun j level hj => ?_,
        fun hnone => ?_⟩
      · exact Option.some.inj (h.changing_update hin hj)
      · simpa [State.move, Place.changing] using hnone i
  | set_mask i new_level next hplace =>
      have hin : (s.thread i).inLevel = true := by rw [hplace]; rfl
      have hlevel := h.places i
      rw [hplace] at hlevel
      obtain ⟨hlow, hhigh⟩ := hlevel
      simp only [LOG_NOTICE, LOG_DEBUG] at hlow hhigh
      refine ⟨h.inside hin, h.level, ⟨new_level.toNat, ?_, ?_, rfl⟩, h.places_update trivial,
        fun j level hj => ?_, fun _ => ?_⟩
      · simp only [LOG_NOTICE]
        omega
      · simp only [LOG_DEBUG]
        omega
      · cases h.changing_update hin hj
      · have hsame : s.log_level = new_level := h.changing i new_level (by rw [hplace]; rfl)
        simp [State.move, hsame]
  | set_unlock i next hplace =>
      obtain ⟨hout, hok, hafter⟩ := next_place_level next
      exact h.move rfl rfl rfl (h.release (by rw [hplace]; rfl) hout) hok (by rw [hplace]; rfl)
        hafter

theorem levelInv_reachable (h : Reachable (step pcre) (State.init ρ n) s) : LevelInv s :=
  h.invariant levelInv_init fun _ _ _ hinv _ hs => levelInv_step hinv (step_sound hs)

end Step

/-! ## The messages -/

/-- With which priority a message goes on. -/
def priority_of (pcre : Pcre ρ) (installed : CStr) (m : Message) : Nat :=
  if (compiled pcre installed).any (pcre.pcre_exec · (subject m.string)) then LOG_ERR
  else m.priority

def Place.PriorityOk (pcre : Pcre ρ) : Place → Prop
  | .rdunlock m priority installed | .output m priority installed =>
      priority = priority_of pcre installed m
  | _ => True

/-- Up to `LOG_NOTICE` a message is written, above it may be left out. -/
structure PrintedRight (pcre : Pcre ρ) (p : Printed) : Prop where
  written : priority_of pcre p.installed p.message ≤ LOG_NOTICE → p.output ≠ none
  whole : ∀ priority string, p.output = some (priority, string) →
    priority = priority_of pcre p.installed p.message ∧ string = check_string p.message.string

theorem in_logmask_LOG_UPTO (level priority : Nat) :
    in_logmask (LOG_UPTO level) priority = decide (priority % 8 ≤ level) := by
  rw [in_logmask, LOG_UPTO, Nat.testBit_two_pow_sub_one, decide_eq_decide, Nat.lt_succ_iff]

section Messages

variable {pcre : Pcre ρ} {s s' : State ρ n} {a : Action n} {i : Fin n} {place : Place}

theorem LevelInv.writes (h : LevelInv s) {priority : Nat} (hpriority : priority ≤ LOG_NOTICE) :
    s.writes priority = true := by
  obtain ⟨level, hlow, -, hmask⟩ := h.logmask
  have hlevel := h.level.1
  simp only [LOG_NOTICE] at hpriority hlow hlevel
  rw [State.writes, hmask, in_logmask_LOG_UPTO]
  split
  · rw [decide_eq_true_eq]
    omega
  · rw [decide_eq_true_eq]
    omega

theorem printedRight_output (h : LevelInv s) {m : Message} {priority : Nat} {installed : CStr}
    (hpriority : priority = priority_of pcre installed m) :
    PrintedRight pcre ⟨m, installed,
      if s.writes priority then some (priority, check_string m.string) else none⟩ := by
  subst hpriority
  constructor
  · intro hle
    simp [h.writes hle]
  · intro priority string hout
    simp only at hout
    split at hout
    · cases hout
      exact ⟨rfl, rfl⟩
    · cases hout

structure MessageInv (pcre : Pcre ρ) (s : State ρ n) : Prop where
  places : ∀ i, (s.thread i).PriorityOk pcre
  printed : ∀ p ∈ s.printed, PrintedRight pcre p

theorem MessageInv.move (h : MessageInv pcre s)
    (hthread : s'.thread = Function.update s.thread i place) (hprinted : s'.printed = s.printed)
    (hok : place.PriorityOk pcre) : MessageInv pcre s' where
  places j := by
    rw [hthread]
    rcases update_cases s.thread i place j with ⟨-, hnew⟩ | hold
    · rwa [hnew]
    · rw [hold]
      exact h.places j
  printed := by
    rw [hprinted]
    exact h.printed

theorem priorityOk_of_next_place (pcre : Pcre ρ) (next : Option Message) :
    (next_place next).PriorityOk pcre := by
  cases next <;> trivial

theorem messageInv_step (h : MessageInv pcre s) (hregexp : RegexpInv pcre s) (hlevel : LevelInv s)
    (hs : Step pcre s a s') : MessageInv pcre s' := by
  cases hs with
  | syslog_ready => exact ⟨h.places, h.printed⟩
  | call i c hplace =>
      refine h.move (i := i) rfl rfl ?_
      cases c <;> trivial
  | check_none i m hplace hre =>
      have hcurrent := current_of_reading hregexp (i := i) (by rw [hplace]; rfl)
      have hnone : compiled pcre s.installed = none := hcurrent.none hre
      refine h.move rfl rfl ?_
      simp [Place.PriorityOk, priority_of, hnone]
  | exec i m id re hplace hget =>
      have hcurrent := current_of_reading hregexp (i := i) (by rw [hplace]; rfl)
      obtain ⟨re', hget', hsome⟩ := hcurrent.some id (hregexp.exec i m id hplace)
      cases hget.symm.trans hget'
      have hsome' : compiled pcre s.installed = some re := hsome
      refine h.move rfl rfl ?_
      simp [Place.PriorityOk, priority_of, hsome']
  | rdunlock i m priority installed hplace =>
      have hok := h.places i
      rw [hplace] at hok
      exact h.move rfl rfl hok
  | output i m priority installed hplace =>
      have hok := h.places i
      rw [hplace] at hok
      refine ⟨fun j => ?_, fun p hp => ?_⟩
      · have hmove : MessageInv pcre (s.move i .idle) := h.move rfl rfl trivial
        exact hmove.places j
      · rcases List.mem_append.mp hp with hold | hnew
        · exact h.printed p hold
        · rw [List.mem_singleton.mp hnew]
          exact printedRight_output hlevel hok
  | set_rejected i _ next hplace | set_unlock i next hplace =>
      exact h.move rfl rfl (priorityOk_of_next_place pcre next)
  | _ => exact h.move rfl rfl trivial

theorem messageInv_init : MessageInv pcre (State.init ρ n) := ⟨fun _ => trivial, by simp [State.init]⟩

theorem messageInv_reachable (h : Reachable (step pcre) (State.init ρ n) s) :
    MessageInv pcre s := by
  have hinv : RegexpInv pcre s ∧ LevelInv s ∧ MessageInv pcre s := by
    apply h.invariant
    · exact ⟨regexpInv_init pcre, levelInv_init, messageInv_init⟩
    · rintro s a s' ⟨hregexp, hlevel, hmessage⟩ - hs
      have hsound := step_sound hs
      exact ⟨regexpInv_step hregexp hsound, levelInv_step hlevel hsound,
        messageInv_step hmessage hregexp hlevel hsound⟩
  exact hinv.2.2

structure Logged (pcre : Pcre ρ) (s : State ρ n) : Prop where
  level : (LOG_NOTICE : Int) ≤ s.log_level ∧ s.log_level ≤ LOG_DEBUG
  mask : (∀ i, (s.thread i).inLevel = false) → s.logmask = LOG_UPTO s.log_level.toNat
  printed : ∀ p ∈ s.printed, PrintedRight pcre p

/-- In every state that any number of threads reach by logging, setting the regular expression
and changing the level, what was logged went on with the right priority, and no message up to
`LOG_NOTICE` or matched by the expression in force was left out. -/
theorem logged_of_reachable (h : Reachable (step pcre) (State.init ρ n) s) : Logged pcre s := by
  have hlevel := levelInv_reachable h
  refine ⟨hlevel.level, fun hout => hlevel.agree fun i => ?_, (messageInv_reachable h).printed⟩
  by_contra hne
  have hin := inLevel_of_changing hne
  rw [hout i] at hin
  cases hin

end Messages

theorem logged_match :
    ∃ s : State CStr 2, s.printed.map (·.output) =
        [some (LOG_NOTICE, "After setting logregexp
".toList), some (LOG_ERR, "a:b".toList), none] ∧
      Logged textPcre s := by
  obtain ⟨s, hrun, hprinted⟩ : ∃ s : State CStr 2,
      run (step textPcre) (State.init CStr 2)
        (.call 0 (.do_regexp ":b".toList) :: (List.replicate 11 (.thread 0) ++
          .call 1 (.print_log ⟨LOG_DEBUG, "a:b".toList⟩) :: (List.replicate 5 (.thread 1) ++
          .call 1 (.print_log ⟨LOG_DEBUG, "b:a".toList⟩) :: List.replicate 5 (.thread 1)))) =
            some s ∧
        s.printed.map (·.output) = [some (LOG_NOTICE, "After setting logregexp
".toList),
          some (LOG_ERR, "a:b".toList), none] :=
    ⟨_, rfl, by decide⟩
  exact ⟨s, hprinted, logged_of_reachable (Reachable.of_run hrun)⟩

end SnappCollector.Log
