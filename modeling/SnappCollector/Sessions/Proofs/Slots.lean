import SnappCollector.Sessions.Machine

/-!
# One slot for every session

Every way through `get_collect` and `load_oid_table` gives back the slot that it runs
under and closes the session that it opened.
-/

namespace SnappCollector.Sessions

open Machine

/-! ## What a thread holds -/

def WorkerPlace.holds : WorkerPlace → Bool
  | .opening _ | .collection _ | .done | .returned => true
  | .waiting | .session_wait _ | .finished => false

def WorkerPlace.in_session : WorkerPlace → Bool
  | .collection _ | .done => true
  | .waiting | .session_wait _ | .opening _ | .returned | .finished => false

/-- The thread has not given back the slot that was taken for its host. -/
def TablePlace.holds : TablePlace → Bool
  | .oid _ | .opening _ | .bulk _ | .loaded _ | .returned _ => true
  | .finished => false

def TablePlace.in_session : TablePlace → Bool
  | .bulk _ | .loaded _ => true
  | .oid _ | .opening _ | .returned _ | .finished => false

/-- The slot of a host has been taken and its thread not been created. -/
def LoaderPlace.holds : LoaderPlace → Bool
  | .create _ _ => true
  | .idle | .sem_wait _ | .join _ => false

def State.holders (s : State) : Nat :=
  s.worker.countP WorkerPlace.holds + s.table.countP TablePlace.holds + s.loader.holds.toNat

def State.in_session (s : State) : Nat :=
  s.worker.countP WorkerPlace.in_session + s.table.countP TablePlace.in_session

/-! ## What a step changes -/

def Effect.slots : Effect → Int
  | .sem_wait => 1
  | .sem_post => -1
  | .none | .snmp_sess_open | .snmp_sess_close => 0

def Effect.sessions : Effect → Int
  | .snmp_sess_open => 1
  | .snmp_sess_close => -1
  | .none | .sem_wait | .sem_post => 0

theorem workerStep_balanced {place place' : WorkerPlace} {a : WorkerAction} {effect : Effect}
    (h : workerStep place a = some (place', effect)) :
    (place'.holds.toNat : Int) = place.holds.toNat + effect.slots ∧
      (place'.in_session.toNat : Int) = place.in_session.toNat + effect.sessions := by
  unfold workerStep at h
  split at h
  case h_6 left e =>
    cases h
    cases e <;> exact ⟨rfl, rfl⟩
  all_goals first
    | cases h; exact ⟨rfl, rfl⟩
    | cases h

theorem tableStep_balanced {place place' : TablePlace} {a : TableAction} {effect : Effect}
    (h : tableStep place a = some (place', effect)) :
    (place'.holds.toNat : Int) = place.holds.toNat + effect.slots ∧
      (place'.in_session.toNat : Int) = place.in_session.toNat + effect.sessions := by
  unfold tableStep at h
  split at h
  case h_6 left e =>
    cases h
    cases e <;> exact ⟨rfl, rfl⟩
  all_goals first
    | cases h; exact ⟨rfl, rfl⟩
    | cases h

theorem State.apply_spec {s s' : State} {effect : Effect} (h : s.apply effect = some s') :
    s'.worker = s.worker ∧ s'.table = s.table ∧ s'.loader = s.loader ∧
      (s'.session_semaphore : Int) = s.session_semaphore - effect.slots ∧
      s'.opened = s.opened + effect.sessions := by
  obtain ⟨session_semaphore, worker, loader, table, opened⟩ := s
  cases effect with
  | none =>
      cases h
      simp [Effect.slots, Effect.sessions]
  | sem_wait =>
      cases session_semaphore with
      | zero => cases h
      | succ n =>
          cases h
          simp [Effect.slots, Effect.sessions]
  | sem_post | snmp_sess_open | snmp_sess_close =>
      cases h
      simp [Effect.slots, Effect.sessions, Int.sub_eq_add_neg]

/-! ## Every step -/

/-- Every slot is free or held, and the sessions are those of the threads in one. -/
structure Balanced (s : State) : Prop where
  slots : s.session_semaphore + s.holders = session_limit
  sessions : s.opened = s.in_session
  joined : ∀ i, s.loader = .join i → ∀ j < i, s.table[j]? = some .finished

theorem balanced_init : Balanced State.init where
  slots := rfl
  sessions := rfl
  joined i h := by cases h

theorem balanced_worker {s s' : State} {i : Nat} {a : WorkerAction} (h : Balanced s)
    (hs : step s (.worker i a) = some s') : Balanced s' := by
  obtain ⟨hslots, hsessions, hjoined⟩ := h
  obtain ⟨place, hplace, hs⟩ := Option.bind_eq_some_iff.mp hs
  obtain ⟨⟨place', effect⟩, hnext, hs⟩ := Option.bind_eq_some_iff.mp hs
  obtain ⟨hholds, hin⟩ := workerStep_balanced hnext
  obtain ⟨hworker, htable, hloader, hsem, hopened⟩ := State.apply_spec hs
  have hcount := countP_set_add (p := WorkerPlace.holds) hplace place'
  have hcount' := countP_set_add (p := WorkerPlace.in_session) hplace place'
  dsimp only at hworker htable hloader hsem hopened
  simp only [State.holders, State.in_session] at hslots hsessions
  refine ⟨?_, ?_, ?_⟩
  · simp only [State.holders, hworker, htable, hloader]
    omega
  · simp only [State.in_session, hworker, htable]
    omega
  · rw [hloader, htable]
    exact hjoined

theorem balanced_table {s s' : State} {i : Nat} {a : TableAction} (h : Balanced s)
    (hs : step s (.table i a) = some s') : Balanced s' := by
  obtain ⟨hslots, hsessions, hjoined⟩ := h
  obtain ⟨place, hplace, hs⟩ := Option.bind_eq_some_iff.mp hs
  obtain ⟨⟨place', effect⟩, hnext, hs⟩ := Option.bind_eq_some_iff.mp hs
  obtain ⟨hholds, hin⟩ := tableStep_balanced hnext
  obtain ⟨hworker, htable, hloader, hsem, hopened⟩ := State.apply_spec hs
  have hcount := countP_set_add (p := TablePlace.holds) hplace place'
  have hcount' := countP_set_add (p := TablePlace.in_session) hplace place'
  dsimp only at hworker htable hloader hsem hopened
  simp only [State.holders, State.in_session] at hslots hsessions
  refine ⟨?_, ?_, ?_⟩
  · simp only [State.holders, hworker, htable, hloader]
    omega
  · simp only [State.in_session, hworker, htable]
    omega
  · rw [hloader, htable]
    intro k hk j hj
    have hfinished := hjoined k hk j hj
    by_cases hij : i = j
    · -- a thread that has ended has no step
      subst hij
      obtain rfl : place = .finished := Option.some.inj (hplace.symm.trans hfinished)
      cases hnext
    · rwa [List.getElem?_set_ne hij]

theorem counts_of_joined {table : List TablePlace} {i : Nat} (hlast : table[i]? = none)
    (hjoined : ∀ j < i, table[j]? = some .finished) :
    table.countP TablePlace.holds = 0 ∧ table.countP TablePlace.in_session = 0 := by
  have hall : ∀ place ∈ table, place = .finished := by
    intro place hmem
    obtain ⟨j, hj⟩ := List.mem_iff_getElem?.mp hmem
    have hlt := (List.getElem?_eq_some_iff.mp hj).1
    have hle := List.getElem?_eq_none_iff.mp hlast
    exact Option.some.inj (hj.symm.trans (hjoined j (by omega)))
  constructor
  · exact List.countP_eq_zero.mpr fun place hmem => by simp [hall place hmem, TablePlace.holds]
  · exact List.countP_eq_zero.mpr fun place hmem => by
      simp [hall place hmem, TablePlace.in_session]

theorem balanced_loader {s s' : State} (h : Balanced s) (hs : step s .loader = some s') :
    Balanced s' := by
  obtain ⟨hslots, hsessions, hjoined⟩ := h
  simp only [State.holders, State.in_session] at hslots hsessions
  cases hplace : s.loader with
  | idle =>
      rw [step, hplace] at hs
      cases hs
  | sem_wait hosts =>
      rw [hplace, LoaderPlace.holds] at hslots
      cases hosts with
      | nil =>
          rw [step, hplace] at hs
          cases hs
          exact ⟨hslots, hsessions, fun i hi j hj => by cases hi; cases hj⟩
      | cons oids hosts =>
          rw [step, hplace, loaderStep] at hs
          obtain ⟨hworker, htable, hloader, hsem, hopened⟩ := State.apply_spec hs
          dsimp only at hworker htable hloader hsem hopened
          simp only [Effect.slots, Effect.sessions] at hsem hopened
          refine ⟨?_, ?_, ?_⟩
          · simp only [State.holders, hworker, htable, hloader, LoaderPlace.holds]
            simp only [Bool.toNat_false, Bool.toNat_true] at hslots ⊢
            omega
          · simp only [State.in_session, hworker, htable]
            omega
          · simp [hloader]
  | create oids hosts =>
      rw [hplace, LoaderPlace.holds] at hslots
      rw [step, hplace] at hs
      cases hs
      refine ⟨?_, ?_, ?_⟩
      · simp only [State.holders, LoaderPlace.holds, List.countP_append, List.countP_singleton,
          TablePlace.holds]
        simp only [Bool.toNat_false, Bool.toNat_true, if_true] at hslots ⊢
        omega
      · simpa [State.in_session, TablePlace.in_session] using hsessions
      · simp
  | join i =>
      rw [hplace, LoaderPlace.holds] at hslots
      rw [step, hplace, loaderStep] at hs
      have hdone := hjoined i hplace
      cases htable : s.table[i]? with
      | none =>
          rw [htable] at hs
          cases hs
          obtain ⟨hholds, hin⟩ := counts_of_joined htable hdone
          refine ⟨?_, ?_, ?_⟩
          · simpa [State.holders, LoaderPlace.holds, hholds] using hslots
          · simpa [State.in_session, hin] using hsessions
          · simp
      | some place =>
          rw [htable] at hs
          simp only at hs
          split at hs
          next hfinished =>
            cases hs
            refine ⟨hslots, hsessions, fun k hk j hj => ?_⟩
            cases hk
            rcases Nat.lt_succ_iff_lt_or_eq.mp hj with hlt | rfl
            · exact hdone j hlt
            · rw [htable, hfinished]
          next => cases hs

theorem balanced_step {s s' : State} {a : Action} (h : Balanced s) (hs : step s a = some s') :
    Balanced s' := by
  cases a with
  | create_worker =>
      cases hs
      refine ⟨?_, ?_, h.joined⟩
      · simpa [State.holders, WorkerPlace.holds] using h.slots
      · simpa [State.in_session, WorkerPlace.in_session] using h.sessions
  | worker i a => exact balanced_worker h hs
  | load_host_tables hosts =>
      simp only [step] at hs
      split at hs
      next hidle =>
        cases hs
        refine ⟨?_, h.sessions, fun i hi => by cases hi⟩
        simpa [State.holders, LoaderPlace.holds, hidle] using h.slots
      next => cases hs
  | loader => exact balanced_loader h hs
  | table i a => exact balanced_table h hs

theorem balanced_reachable {s : State} (h : Reachable step State.init s) : Balanced s :=
  h.invariant balanced_init fun _ _ _ hinv _ hs => balanced_step hinv hs

theorem in_session_le_holders (s : State) : s.in_session ≤ s.holders := by
  have hworker : s.worker.countP WorkerPlace.in_session ≤ s.worker.countP WorkerPlace.holds :=
    List.countP_mono_left fun place _ => by
      cases place <;> simp [WorkerPlace.in_session, WorkerPlace.holds]
  have htable : s.table.countP TablePlace.in_session ≤ s.table.countP TablePlace.holds :=
    List.countP_mono_left fun place _ => by
      cases place <;> simp [TablePlace.in_session, TablePlace.holds]
  simp only [State.in_session, State.holders]
  omega

/-- The free slots and the holders are always 800, and no more sessions are open than
there are holders. -/
theorem sessions_of_reachable {s : State} (h : Reachable step State.init s) :
    s.session_semaphore + s.holders = 800 ∧ s.opened ≤ s.holders := by
  have hbalanced := balanced_reachable h
  refine ⟨hbalanced.slots, ?_⟩
  rw [hbalanced.sessions]
  exact Int.ofNat_le.mpr (in_session_le_holders s)

def busy_acts : List Action :=
  [.create_worker, .worker 0 (.pop (some 1)), .worker 0 .sem_wait,
    .worker 0 (.snmp_sess_open true), .load_host_tables [1], .loader, .loader,
    .table 0 (.read_objid true), .table 0 (.snmp_sess_open true),
    .worker 0 (.collection .timeout)]

def busy : State := ⟨798, [.done], .sem_wait [], [.bulk 0], 2⟩

theorem run_busy_acts : run step State.init busy_acts = some busy := by decide

theorem sessions_busy : busy.session_semaphore + busy.holders = 800 ∧ busy.opened ≤ busy.holders :=
  sessions_of_reachable (.of_run run_busy_acts)

end SnappCollector.Sessions
