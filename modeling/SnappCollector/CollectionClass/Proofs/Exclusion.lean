import SnappCollector.CollectionClass.Proofs.Rounds

/-!
# One poll of a host at a time

A round starts as soon as the queue is empty.  The hosts of the last round may
still be polled then, and the new round hands them out again.  When every round
that finds the queue empty also finds no host being polled, a host is never in
two places.
-/

namespace SnappCollector.CollectionClass

open Machine

/-- The worker has popped host `h` and has not finished `get_collect` for it. -/
def WorkerPlace.holds (h : Int) : WorkerPlace → Bool
  | .popped i | .session_wait i | .collecting i => i = h
  | _ => false

def WorkerPlace.busy : WorkerPlace → Bool
  | .popped _ | .session_wait _ | .collecting _ => true
  | _ => false

theorem WorkerPlace.busy_of_holds {p : WorkerPlace} {h : Int} (hp : p.holds h = true) :
    p.busy = true := by
  cases p <;> simp_all [WorkerPlace.holds, WorkerPlace.busy]

variable {k n : Nat}

/-- If the step starts a round, no host of an earlier round is with a worker. -/
def StartsIdle (s : State k) (a : Action k) : Prop :=
  a = .main → s.main = .test → s.pending_host_index_queue = [] →
    ∀ w, (s.worker w).busy = false

instance (s : State k) (a : Action k) : Decidable (StartsIdle s a) :=
  inferInstanceAs (Decidable (_ → _ → _ → _))

structure Exclusive (s : State k) : Prop where
  pushing : ∀ j, s.main.pushed = some j →
    s.pending_host_index_queue = hosts j ∧ ∀ w, (s.worker w).busy = false
  once : ∀ h : Int, 0 ≤ h →
    s.pending_host_index_queue.count h + numAt (WorkerPlace.holds h) s.worker ≤ 1

theorem exclusive_init (sessions : Nat) : Exclusive (State.init k sessions) where
  pushing j hj := by cases hj
  once h _ := by simp [State.init, numAt, WorkerPlace.holds]

section Frame

variable {s s' : State k}

theorem Exclusive.frame (h : Exclusive s)
    (hpushing : ∀ j, s'.main.pushed = some j → s.main.pushed = some j ∧
      s'.pending_host_index_queue = s.pending_host_index_queue)
    (hbusy : ∀ w, (s'.worker w).busy = true → (s.worker w).busy = true)
    (hqueue : ∀ h : Int, 0 ≤ h →
      s'.pending_host_index_queue.count h ≤ s.pending_host_index_queue.count h)
    (hholds : ∀ h : Int, 0 ≤ h →
      numAt (WorkerPlace.holds h) s'.worker ≤ numAt (WorkerPlace.holds h) s.worker) :
    Exclusive s' where
  pushing j hj := by
    obtain ⟨hold, hsame⟩ := hpushing j hj
    obtain ⟨hhosts, hidle⟩ := h.pushing j hold
    refine ⟨hsame.trans hhosts, fun w => ?_⟩
    by_contra hw
    have hwas := hbusy w (by simpa using hw)
    rw [hidle w] at hwas
    cases hwas
  once host hhost := by
    have honce := h.once host hhost
    have hle := hqueue host hhost
    have hle' := hholds host hhost
    omega

theorem Exclusive.move_worker (h : Exclusive s) {w : Fin k} {p : WorkerPlace}
    (hbusy : p.busy = true → (s.worker w).busy = true)
    (hholds : ∀ h : Int, 0 ≤ h → p.holds h = true → (s.worker w).holds h = true)
    (hs' : s' = { s with
      worker := Function.update s.worker w p
      worker_semaphore := s'.worker_semaphore
      lock := s'.lock, session_semaphore := s'.session_semaphore }) : Exclusive s' := by
  rw [hs']
  refine h.frame (fun j hj => ⟨hj, rfl⟩) (fun v hv => ?_) (fun _ _ => le_rfl) fun host hhost => ?_
  · exact update_imp (WorkerPlace.busy · = true) hbusy hv
  · have hcount := numAt_update (WorkerPlace.holds host) s.worker w p
    cases hp : p.holds host with
    | false =>
        simp only [hp, Bool.toNat_false] at hcount
        simp only
        omega
    | true =>
        simp only [hp, hholds host hhost hp] at hcount
        simp only
        omega

end Frame

variable {s s' : State k} {a : Action k}

theorem Exclusive.push (h : Exclusive s) {i : Nat} (hplace : s.main = .push i) :
    Exclusive { s with
      pending_host_index_queue := s.pending_host_index_queue ++ [(i : Int)]
      main := .post i } := by
  obtain ⟨hqueue, hnone⟩ := h.pushing i (by rw [hplace]; rfl)
  have hnext : s.pending_host_index_queue ++ [(i : Int)] = hosts (i + 1) := by
    rw [hosts_succ, hqueue]
  refine ⟨fun j hj => ?_, fun host hhost => ?_⟩
  · obtain rfl := Option.some.inj hj
    exact ⟨hnext, hnone⟩
  · have hheld : numAt (WorkerPlace.holds host) s.worker = 0 := by
      rw [numAt_eq_zero_iff]
      intro w
      by_contra hw
      have hbusy := WorkerPlace.busy_of_holds (by simpa using hw : _ = true)
      rw [hnone w] at hbusy
      cases hbusy
    simp only [hnext, hheld, Nat.add_zero]
    exact List.nodup_iff_count_le_one.mp (nodup_hosts _) host

theorem Exclusive.pop (hlock : Guarded s) (h : Exclusive s) {w : Fin k} {collection_index : Int}
    {queue : List Int} (hplace : s.worker w = .front)
    (hqueue : s.pending_host_index_queue = collection_index :: queue) :
    Exclusive { s with
      pending_host_index_queue := queue
      worker := Function.update s.worker w (.popped collection_index)
      popped := s.popped ++ [(w, collection_index)] } := by
  have hnone := pushed_eq_none hlock (t := .worker w)
    (by simp [State.inside, hplace, WorkerPlace.inside]) (by simp)
  refine ⟨fun j hj => ?_, fun host hhost => ?_⟩
  · rw [hnone] at hj
    cases hj
  · have honce := h.once host hhost
    have hcount := numAt_update (WorkerPlace.holds host) s.worker w (.popped collection_index)
    rw [hqueue, List.count_cons] at honce
    rw [hplace] at hcount
    by_cases hindex : collection_index = host
    · simp only [WorkerPlace.holds, hindex, beq_self_eq_true, decide_true, if_true,
        Bool.toNat_true, Bool.toNat_false] at honce hcount ⊢
      omega
    · simp only [WorkerPlace.holds, hindex, beq_iff_eq, decide_false, if_false,
        Bool.toNat_false] at honce hcount ⊢
      omega

theorem exclusive_step (hlock : Guarded s) (h : Exclusive s) (hidle : StartsIdle s a)
    (hs : Step n s a s') : Exclusive s' := by
  cases hs with
  | main_iteration | main_lock | main_skip | main_warned | main_pushed | main_unlock | main_sent
  | main_sleep | main_slept | main_cancelled =>
      exact h.frame (fun j hj => (nomatch hj)) (fun _ => id) (fun _ _ => le_rfl)
        fun _ _ => le_rfl
  | main_round hplace hempty =>
      refine ⟨fun j hj => ?_, h.once⟩
      obtain rfl := Option.some.inj hj
      exact ⟨hempty, hidle rfl hplace hempty⟩
  | main_push i hplace hi => exact h.push hplace
  | main_post i hplace =>
      refine ⟨fun j hj => ?_, h.once⟩
      obtain rfl := Option.some.inj hj
      exact h.pushing (i + 1) (by rw [hplace]; rfl)
  | worker_pop w collection_index queue hplace hqueue => exact h.pop hlock hplace hqueue
  | worker_wait w worker_semaphore hplace | worker_lock w hplace | worker_pop_empty w hplace
  | worker_collected w collection_index hplace | worker_session_post w hplace
  | worker_finish w hplace =>
      exact h.move_worker (by simp [WorkerPlace.busy]) (by simp [WorkerPlace.holds]) rfl
  | worker_unlock w collection_index hplace hindex
  | worker_session w collection_index session_semaphore hplace =>
      exact h.move_worker (by simp [hplace, WorkerPlace.busy])
        (by simp [hplace, WorkerPlace.holds]) rfl
  | finalize_clear index queue hplace hqueue =>
      have hnone := pushed_eq_none hlock (t := .finalize)
        (by simp [State.inside, hplace, FinalizePlace.inside]) (by simp)
      refine h.frame (fun j hj => ?_) (fun _ => id) (fun host _ => ?_) fun _ _ => le_rfl
      · rw [hnone] at hj
        cases hj
      · rw [hqueue]
        exact List.count_le_count_cons
  | finalize_push i hplace hi =>
      have hnone := pushed_eq_none hlock (t := .finalize)
        (by simp [State.inside, hplace, FinalizePlace.inside]) (by simp)
      refine h.frame (fun j hj => ?_) (fun _ => id) (fun host hhost => ?_) fun _ _ => le_rfl
      · rw [hnone] at hj
        cases hj
      · have hmark : (-1 : Int) ≠ host := by omega
        simp [List.count_append, hmark]
  | finalize_call | finalize_lock | finalize_cancel | finalize_cleared | finalize_pushed
  | finalize_post | finalize_unlock | finalize_join | finalize_joined | other_session_wait
  | other_session_post =>
      exact h.frame (fun j hj => ⟨hj, rfl⟩) (fun _ => id) (fun _ _ => le_rfl) fun _ _ => le_rfl

/-- When every round starts with no host of an earlier one at a worker, at most one
worker is inside `get_collect` for a host. -/
theorem one_poll_of_startsIdle {sessions : Nat}
    (h : Reaches (step n) StartsIdle (State.init k sessions) s) (host : Nat) {w v : Fin k}
    (hw : s.worker w = .collecting host) (hv : s.worker v = .collecting host) : w = v := by
  have hinv : Guarded s ∧ Exclusive s := by
    apply h.invariant
    · exact ⟨guarded_init sessions, exclusive_init sessions⟩
    · intro s a s' hinv hidle hs
      have hstep := step_sound hs
      exact ⟨guarded_step hinv.1 hstep, exclusive_step hinv.1 hinv.2 hidle hstep⟩
  have honce := hinv.2.once host (by omega)
  have hle : numAt (WorkerPlace.holds host) s.worker ≤ 1 := by omega
  apply eq_of_numAt_le_one hle
  · simp [hw, WorkerPlace.holds]
  · simp [hv, WorkerPlace.holds]

theorem one_poll_first_round :
    ∃ s : State 2, s.worker 0 = .collecting 0 ∧ s.worker 1 = .collecting 1 ∧
      ∀ v, s.worker v = .collecting 0 → v = 0 := by
  obtain ⟨s, hrun, hzero, hone⟩ : ∃ s : State 2,
      run (fun s a => if StartsIdle s a then step 2 s a else none) (State.init 2 800)
          (List.replicate 9 .main ++ List.replicate 5 (.worker 0) ++
            List.replicate 5 (.worker 1)) = some s ∧
        s.worker 0 = .collecting 0 ∧ s.worker 1 = .collecting 1 :=
    ⟨_, rfl, rfl, rfl⟩
  exact ⟨s, hzero, hone, fun v hv => one_poll_of_startsIdle (.of_run hrun) 0 hv hzero⟩

/-- Worker 0 is still at host 0 of the first round when worker 1 gets it from the second. -/
theorem two_polls_at_once :
    num_workers 2 = 2 ∧
      ∃ s : State 2, Reachable (step 2) (State.init 2 800) s ∧
        s.worker 0 = .collecting 0 ∧ s.worker 1 = .collecting 0 := by
  obtain ⟨s, hrun, hzero, hone⟩ : ∃ s : State 2,
      run (step 2) (State.init 2 800)
          (List.replicate 9 .main ++ List.replicate 5 (.worker 0) ++
            List.replicate 7 (.worker 1) ++ List.replicate 12 .main ++
            List.replicate 5 (.worker 1)) = some s ∧
        s.worker 0 = .collecting 0 ∧ s.worker 1 = .collecting 0 :=
    ⟨_, rfl, rfl, rfl⟩
  exact ⟨rfl, s, .of_run hrun, hzero, hone⟩

end SnappCollector.CollectionClass
