import Mathlib.Algebra.GroupWithZero.Nat
import SnappCollector.Machine.Progress
import SnappCollector.Sessions.Proofs.Slots

/-!
# Nobody waits for a session for ever

A thread waits for at most one slot, and only while it holds none; `load_host_tables` joins no
thread before the last slot is taken.  So a slot is always given back, whatever the limit
and however many configurations there are.
-/

namespace SnappCollector.Sessions

open Machine

/-- How many steps a worker takes until it waits for the next host, at most. -/
def WorkerPlace.stepsLeft : WorkerPlace → Nat
  | .waiting | .finished => 0
  | .returned => 1
  | .done => 2
  | .collection left => left + 2
  | .opening collections => collections + 3
  | .session_wait collections => collections + 4

def TablePlace.stepsLeft : TablePlace → Nat
  | .finished => 0
  | .returned _ => 1
  | .oid left => 4 * left + 2
  | .loaded left => 4 * left + 3
  | .bulk left => 4 * left + 4
  | .opening left => 4 * left + 5

/-- The steps of `load_host_tables` with so many threads, and those of the threads to come. -/
def LoaderPlace.stepsLeft (threads : Nat) : LoaderPlace → Nat
  | .idle => 0
  | .join i => threads - i + 1
  | .sem_wait hosts => threads + 2 + (hosts.map fun oids => 4 * oids + 5).sum
  | .create oids hosts => threads + 2 + (hosts.map fun oids => 4 * oids + 5).sum + (4 * oids + 4)

def State.workLeft (s : State) : Nat :=
  (s.worker.map WorkerPlace.stepsLeft).sum + (s.table.map TablePlace.stepsLeft).sum +
    s.loader.stepsLeft s.table.length

/-- What the threads do without a new host, a new configuration or another variable of a
table. -/
def Action.work : Action → Bool
  | .worker _ a => match a with
      | .pop _ => false
      | _ => true
  | .table _ a => match a with
      | .bulk .more => false
      | _ => true
  | .loader => true
  | .create_worker | .load_host_tables _ => false

def WorkerPlace.rests : WorkerPlace → Bool
  | .waiting | .finished => true
  | _ => false

structure State.AtRest (s : State) : Prop where
  worker : ∀ place ∈ s.worker, place.rests = true
  table : ∀ place ∈ s.table, place = .finished
  loader : s.loader = .idle

/-! ## Every step is one less -/

section Steps

variable {s s' : State} {a : Action}

theorem workerStep_stepsLeft {place place' : WorkerPlace} {i : Nat} {a : WorkerAction}
    {effect : Effect} (ha : (Action.worker i a).work = true)
    (h : workerStep place a = some (place', effect)) : place'.stepsLeft < place.stepsLeft := by
  unfold workerStep at h
  split at h
  case h_6 left e =>
    cases h
    cases e <;> simp [CollectionEnd.goes_to_done, WorkerPlace.stepsLeft]
  all_goals first
    | cases h; simp [WorkerPlace.stepsLeft]; done
    | cases h; cases ha
    | cases h

theorem tableStep_stepsLeft {place place' : TablePlace} {i : Nat} {a : TableAction}
    {effect : Effect} (ha : (Action.table i a).work = true)
    (h : tableStep place a = some (place', effect)) : place'.stepsLeft < place.stepsLeft := by
  unfold tableStep at h
  split at h
  case h_6 left e =>
    cases h
    cases e with
    | more => cases ha
    | end_of_subtree | exception_value | error_response | timeout | misc_error =>
        simp [TablePlace.stepsLeft]
  all_goals first
    | cases h; simp [TablePlace.stepsLeft]; done
    | cases h; simp only [TablePlace.stepsLeft]; omega
    | cases h

theorem loader_workLeft (hs : step s .loader = some s') : s'.workLeft < s.workLeft := by
  obtain ⟨session_semaphore, worker, loader, table, opened⟩ := s
  cases loader with
  | idle => cases hs
  | sem_wait hosts =>
      cases hosts with
      | nil =>
          cases hs
          simp [State.workLeft, LoaderPlace.stepsLeft]
      | cons oids hosts =>
          simp only [step, loaderStep] at hs
          obtain ⟨hworker, htable, hloader, -, -⟩ := State.apply_spec hs
          simp only [State.workLeft, hworker, htable, hloader, LoaderPlace.stepsLeft,
            List.map_cons, List.sum_cons]
          omega
  | create oids hosts =>
      cases hs
      simp only [State.workLeft, LoaderPlace.stepsLeft, List.map_append, List.sum_append,
        List.map_cons, List.map_nil, List.sum_cons, List.sum_nil, TablePlace.stepsLeft,
        List.length_append, List.length_singleton]
      omega
  | join i =>
      simp only [step, loaderStep] at hs
      cases hplace : table[i]? with
      | none =>
          rw [hplace] at hs
          cases hs
          simp only [State.workLeft, LoaderPlace.stepsLeft, List.map_nil, List.sum_nil]
          omega
      | some place =>
          rw [hplace] at hs
          simp only at hs
          split at hs
          next =>
            cases hs
            have hlt := (List.getElem?_eq_some_iff.mp hplace).1
            simp only [State.workLeft, LoaderPlace.stepsLeft]
            omega
          next => cases hs

theorem workLeft_step (ha : a.work = true) (hs : step s a = some s') :
    s'.workLeft < s.workLeft := by
  cases a with
  | create_worker => cases ha
  | load_host_tables hosts => cases ha
  | loader => exact loader_workLeft hs
  | worker i a =>
      obtain ⟨place, hplace, hs⟩ := Option.bind_eq_some_iff.mp hs
      obtain ⟨⟨place', effect⟩, hnext, hs⟩ := Option.bind_eq_some_iff.mp hs
      obtain ⟨hworker, htable, hloader, -, -⟩ := State.apply_spec hs
      have hless := workerStep_stepsLeft ha hnext
      have hsum := sum_map_set_add hplace WorkerPlace.stepsLeft place'
      simp only [State.workLeft, hworker, htable, hloader]
      omega
  | table i a =>
      obtain ⟨place, hplace, hs⟩ := Option.bind_eq_some_iff.mp hs
      obtain ⟨⟨place', effect⟩, hnext, hs⟩ := Option.bind_eq_some_iff.mp hs
      obtain ⟨hworker, htable, hloader, -, -⟩ := State.apply_spec hs
      have hless := tableStep_stepsLeft ha hnext
      have hsum := sum_map_set_add hplace TablePlace.stepsLeft place'
      simp only [State.workLeft, hworker, htable, hloader, List.length_set]
      omega

end Steps

/-! ## There is always a step -/

section Progress

variable {s : State}

theorem State.exists_apply {effect : Effect} (h : effect = .sem_wait → 0 < s.session_semaphore) :
    ∃ s', s.apply effect = some s' := by
  obtain ⟨session_semaphore, worker, loader, table, opened⟩ := s
  cases effect with
  | sem_wait =>
      obtain ⟨n, rfl⟩ := Nat.exists_eq_succ_of_ne_zero (h rfl).ne'
      exact ⟨_, rfl⟩
  | none | sem_post | snmp_sess_open | snmp_sess_close => exact ⟨_, rfl⟩

theorem exists_worker_step {i : Nat} {place place' : WorkerPlace} {a : WorkerAction}
    {effect : Effect} (hplace : s.worker[i]? = some place)
    (hnext : workerStep place a = some (place', effect))
    (hslot : effect = .sem_wait → 0 < s.session_semaphore) :
    ∃ s', step s (.worker i a) = some s' := by
  simp only [step, hplace, Option.bind_some, hnext]
  exact State.exists_apply hslot

theorem exists_table_step {i : Nat} {place place' : TablePlace} {a : TableAction} {effect : Effect}
    (hplace : s.table[i]? = some place) (hnext : tableStep place a = some (place', effect))
    (hslot : effect = .sem_wait → 0 < s.session_semaphore) :
    ∃ s', step s (.table i a) = some s' := by
  simp only [step, hplace, Option.bind_some, hnext]
  exact State.exists_apply hslot

/-- Who holds a slot does not wait. -/
theorem exists_step_of_holds {i : Nat} {place : WorkerPlace} (hplace : s.worker[i]? = some place)
    (hholds : place.holds = true) : ∃ a s', a.work = true ∧ step s a = some s' := by
  have hstep : ∀ {a place' effect}, (Action.worker i a).work = true → effect ≠ .sem_wait →
      workerStep place a = some (place', effect) → ∃ a s', a.work = true ∧ step s a = some s' := by
    intro a place' effect ha heffect hnext
    obtain ⟨s', hs⟩ := exists_worker_step hplace hnext fun h => (heffect h).elim
    exact ⟨_, s', ha, hs⟩
  cases place with
  | waiting | session_wait | finished => cases hholds
  | opening collections => exact hstep (a := .snmp_sess_open false) rfl (by simp) rfl
  | collection left =>
      cases left with
      | zero => exact hstep (a := .snmp_sess_close) rfl (by simp) rfl
      | succ left => exact hstep (a := .collection .pushed) rfl (by simp) rfl
  | done => exact hstep (a := .snmp_sess_close) rfl (by simp) rfl
  | returned => exact hstep (a := .sem_post) rfl (by simp) rfl

theorem exists_step_of_running {i : Nat} {place : TablePlace} (hplace : s.table[i]? = some place)
    (hrunning : place ≠ .finished) : ∃ a s', a.work = true ∧ step s a = some s' := by
  have hstep : ∀ {a place' effect}, (Action.table i a).work = true → effect ≠ .sem_wait →
      tableStep place a = some (place', effect) → ∃ a s', a.work = true ∧ step s a = some s' := by
    intro a place' effect ha heffect hnext
    obtain ⟨s', hs⟩ := exists_table_step hplace hnext fun h => (heffect h).elim
    exact ⟨_, s', ha, hs⟩
  cases place with
  | oid left =>
      cases left with
      | zero => exact hstep (a := .return_) rfl (by simp) rfl
      | succ left => exact hstep (a := .read_objid true) rfl (by simp) rfl
  | opening left => exact hstep (a := .snmp_sess_open true) rfl (by simp) rfl
  | bulk left => exact hstep (a := .bulk .end_of_subtree) rfl (by simp) rfl
  | loaded left => exact hstep (a := .snmp_sess_close) rfl (by simp) rfl
  | returned rvalue => exact hstep (a := .sem_post) rfl (by simp) rfl
  | finished => exact (hrunning rfl).elim

theorem exists_loader_step (hslot : 0 < s.session_semaphore)
    (htable : ∀ place ∈ s.table, place = .finished) (hloader : s.loader ≠ .idle) :
    ∃ s', step s .loader = some s' := by
  cases hplace : s.loader with
  | idle => exact (hloader hplace).elim
  | sem_wait hosts =>
      cases hosts with
      | nil => exact ⟨_, by rw [step, hplace]; rfl⟩
      | cons oids hosts =>
          simp only [step, hplace, loaderStep]
          exact State.exists_apply fun _ => hslot
  | create oids hosts => exact ⟨_, by rw [step, hplace]; rfl⟩
  | join i =>
      simp only [step, hplace, loaderStep]
      cases hi : s.table[i]? with
      | none => exact ⟨_, rfl⟩
      | some place => exact ⟨_, if_pos (htable place (List.mem_of_getElem? hi))⟩

/-- No thread holds a slot but `load_host_tables`, which holds at most one. -/
theorem exists_slot (h : Balanced s) (hworker : ∀ place ∈ s.worker, place.holds = false)
    (htable : ∀ place ∈ s.table, place = .finished) : 0 < s.session_semaphore := by
  have hslots := h.slots
  have hloader : s.loader.holds.toNat ≤ 1 := Bool.toNat_le _
  have hno : s.worker.countP WorkerPlace.holds = 0 :=
    List.countP_eq_zero.mpr fun place hmem => by simp [hworker place hmem]
  have hnone : s.table.countP TablePlace.holds = 0 :=
    List.countP_eq_zero.mpr fun place hmem => by simp [htable place hmem, TablePlace.holds]
  simp only [State.holders, hno, hnone, session_limit] at hslots
  omega

theorem exists_step (h : Balanced s) (hrest : ¬s.AtRest) :
    ∃ a s', a.work = true ∧ step s a = some s' := by
  by_cases hworker : ∀ place ∈ s.worker, place.holds = false
  · by_cases htable : ∀ place ∈ s.table, place = .finished
    · have hslot := exists_slot h hworker htable
      by_cases hrests : ∀ place ∈ s.worker, place.rests = true
      · have hloader : s.loader ≠ .idle := fun hidle => hrest ⟨hrests, htable, hidle⟩
        obtain ⟨s', hs⟩ := exists_loader_step hslot htable hloader
        exact ⟨.loader, s', rfl, hs⟩
      · -- a worker that waits for a slot gets one
        obtain ⟨place, hmem, hplace⟩ : ∃ place ∈ s.worker, place.rests ≠ true := by
          simpa using hrests
        obtain ⟨i, hi⟩ := List.mem_iff_getElem?.mp hmem
        have hholds := hworker place hmem
        cases place with
        | waiting | finished => exact (hplace rfl).elim
        | opening | collection | done | returned => cases hholds
        | session_wait collections =>
            obtain ⟨s', hs⟩ := exists_worker_step hi (a := .sem_wait) rfl fun _ => hslot
            exact ⟨_, s', rfl, hs⟩
    · obtain ⟨place, hmem, hplace⟩ : ∃ place ∈ s.table, place ≠ .finished := by simpa using htable
      obtain ⟨i, hi⟩ := List.mem_iff_getElem?.mp hmem
      exact exists_step_of_running hi hplace
  · obtain ⟨place, hmem, hplace⟩ : ∃ place ∈ s.worker, place.holds = true := by
      simpa using hworker
    obtain ⟨i, hi⟩ := List.mem_iff_getElem?.mp hmem
    exact exists_step_of_holds hi hplace

theorem balanced_at_rest (h : Balanced s) (hrest : s.AtRest) :
    s.session_semaphore = session_limit ∧ s.opened = 0 := by
  have hworker : ∀ place ∈ s.worker, place.holds = false ∧ place.in_session = false := by
    intro place hmem
    have hrests := hrest.worker place hmem
    cases place with
    | waiting | finished => exact ⟨rfl, rfl⟩
    | session_wait | opening | collection | done | returned => cases hrests
  have hholders : s.holders = 0 := by
    simp only [State.holders, hrest.loader, LoaderPlace.holds, Bool.toNat_false, Nat.add_zero,
      Nat.add_eq_zero_iff, List.countP_eq_zero]
    exact ⟨fun place hmem => by simp [hworker place hmem],
      fun place hmem => by simp [hrest.table place hmem, TablePlace.holds]⟩
  have hin := in_session_le_holders s
  have hslots := h.slots
  have hsessions := h.sessions
  omega

end Progress

/-- From every reachable state of the session pool, once no more hosts and configurations come
and the agents send no more variables of their tables, every thread gets its slot and ends its
calls after a computed number of steps, whatever their order; and then all 800 slots are free
and all sessions closed. -/
theorem slots_return_of_reachable {s : State} (h : Reachable step State.init s) :
    ComesToRest step (fun _ a => a.work = true) State.AtRest s.workLeft s ∧
      ∀ s', Reaches step (fun _ a => a.work = true) s s' → s'.AtRest →
        s'.session_semaphore = 800 ∧ s'.opened = 0 := by
  have hbalanced := balanced_reachable h
  constructor
  · exact comesToRest_of_lowers Balanced hbalanced
      (fun _ _ _ hinv _ hs => balanced_step hinv hs) (fun _ _ _ _ ha hs => workLeft_step ha hs)
      fun _ hinv hrest => exists_step hinv hrest
  · intro s' hreach hrest
    have hbalanced' : Balanced s' :=
      hreach.invariant hbalanced fun _ _ _ hinv _ hs => balanced_step hinv hs
    exact balanced_at_rest hbalanced' hrest

theorem slots_return_busy :
    ComesToRest step (fun _ a => a.work = true) State.AtRest 9 busy ∧
      ∀ s', Reaches step (fun _ a => a.work = true) busy s' → s'.AtRest →
        s'.session_semaphore = 800 ∧ s'.opened = 0 :=
  slots_return_of_reachable (.of_run run_busy_acts)

end SnappCollector.Sessions
