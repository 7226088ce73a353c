import SnappCollector.CollectionClass.Proofs.Shutdown

/-!
# Cancelling the main thread

The main thread logs that the queue is not empty while it holds the lock, and a
pending cancellation may end it there.  The queue is not empty after `finalize`
as long as some worker has not popped its `-1`, so a main thread that waited for
the lock while `finalize` had it can end with the lock held.
-/

namespace SnappCollector.CollectionClass

open Machine

variable {k n : Nat}

/-- If the step takes the lock with a cancellation pending, the queue is empty. -/
def LocksSafely (s : State k) (a : Action k) : Prop :=
  a = .main → s.main = .lock → s.cancel = true → s.pending_host_index_queue = []

instance (s : State k) (a : Action k) : Decidable (LocksSafely s a) :=
  inferInstanceAs (Decidable (_ → _ → _ → _))

structure Alive (s : State k) : Prop where
  owner : ∀ t, s.lock = some t → s.inside t = true
  test : s.main = .test → s.cancel = true → s.pending_host_index_queue = []
  warned : s.main = .queue_not_empty → s.cancel = false

theorem alive_init (sessions : Nat) : Alive (State.init k sessions) where
  owner t ht := by cases ht
  test h := by cases h
  warned h := by cases h

variable {s s' : State k} {a : Action k}

theorem Alive.frame (h : Alive s) (hmain : s'.main = s.main)
    (howner : ∀ t, s'.lock = some t → s'.inside t = true)
    (hsame : s.main.inside = true →
      s'.cancel = s.cancel ∧ s'.pending_host_index_queue = s.pending_host_index_queue) :
    Alive s' := by
  refine ⟨howner, fun hplace hcancel => ?_, fun hplace => ?_⟩
  · rw [hmain] at hplace
    obtain ⟨hc, hq⟩ := hsame (by rw [hplace]; rfl)
    rw [hq]
    exact h.test hplace (hc ▸ hcancel)
  · rw [hmain] at hplace
    obtain ⟨hc, -⟩ := hsame (by rw [hplace]; rfl)
    rw [hc]
    exact h.warned hplace

theorem Alive.move_main (h : Alive s) {m : MainPlace} (hm : m ≠ .test ∧ m ≠ .queue_not_empty)
    (hinside : s.main.inside = true → m.inside = true)
    (hs' : s' = { s with
      main := m
      pending_host_index_queue := s'.pending_host_index_queue
      worker_semaphore := s'.worker_semaphore, rounds := s'.rounds }) : Alive s' := by
  rw [hs']
  refine ⟨fun t ht => ?_, fun hplace => absurd hplace hm.1, fun hplace => absurd hplace hm.2⟩
  have hin := h.owner t ht
  cases t with
  | main => exact hinside hin
  | worker w => exact hin
  | finalize => exact hin

theorem Alive.move_worker (h : Alive s) {w : Fin k} {p : WorkerPlace}
    (hinside : (s.worker w).inside = true → p.inside = true)
    (hs' : s' = { s with
      worker := Function.update s.worker w p
      worker_semaphore := s'.worker_semaphore
      session_semaphore := s'.session_semaphore }) : Alive s' := by
  rw [hs']
  refine h.frame rfl (fun t ht => ?_) fun _ => ⟨rfl, rfl⟩
  have hin := h.owner t ht
  cases t with
  | main => exact hin
  | worker v =>
      simp only [State.inside]
      rcases update_cases s.worker w p v with ⟨rfl, hv⟩ | hv
      · rw [hv]
        exact hinside hin
      · rw [hv]
        exact hin
  | finalize => exact hin

theorem Alive.move_finalize (h : Alive s) {p : FinalizePlace}
    (hinside : s.finalize.inside = true → p.inside = true)
    (hsame : s.main.inside = true →
      s'.cancel = s.cancel ∧ s'.pending_host_index_queue = s.pending_host_index_queue)
    (hs' : s' = { s with
      finalize := p
      cancel := s'.cancel
      pending_host_index_queue := s'.pending_host_index_queue
      worker_semaphore := s'.worker_semaphore }) : Alive s' := by
  refine h.frame (by rw [hs']) (fun t ht => ?_) hsame
  rw [hs'] at ht ⊢
  have hin := h.owner t ht
  cases t with
  | main => exact hin
  | worker w => exact hin
  | finalize => exact hinside hin

theorem alive_step (hlock : Guarded s) (hfault : ∀ w, s'.worker w ≠ .fault) (h : Alive s)
    (hsafe : LocksSafely s a) (hs : Step n s a s') : Alive s' := by
  have houtside : ∀ t, t ≠ .main → s.inside t = true → s.main.inside = false := by
    intro t ht hin
    exact hlock.outside hin (u := .main) (Ne.symm ht)
  cases hs with
  | main_iteration hplace | main_sent hplace | main_sleep hplace | main_slept hplace =>
      exact h.move_main (by simp) (by simp [hplace, MainPlace.inside]) rfl
  | main_round hplace | main_warned hplace | main_push i hplace | main_pushed i hplace
  | main_post i hplace =>
      exact h.move_main (by simp) (fun _ => rfl) rfl
  | main_lock hplace hfree =>
      refine ⟨fun t ht => ?_, fun _ hcancel => hsafe rfl hplace hcancel, fun hm => ?_⟩
      · obtain rfl := Option.some.inj ht
        rfl
      · cases hm
  | main_skip hplace hnonempty =>
      refine ⟨fun t ht => ?_, fun hm => ?_, fun _ => ?_⟩
      · have hin := h.owner t ht
        cases t with
        | main => rfl
        | worker w => exact hin
        | finalize => exact hin
      · cases hm
      · by_contra hcancel
        exact hnonempty (h.test hplace (by simpa using hcancel))
  | main_unlock hplace =>
      refine ⟨fun t ht => ?_, fun hm => ?_, fun hm => ?_⟩
      · cases ht
      · cases hm
      · cases hm
  | main_cancelled hcancel hplace =>
      refine h.move_main (by simp) (fun hin => ?_) rfl
      -- the only such point inside is the warning, and no cancellation is pending there
      have hwarned : s.main = .queue_not_empty := by
        cases hmain : s.main <;> simp_all [MainPlace.cancellation_point, MainPlace.inside]
      rw [h.warned hwarned] at hcancel
      cases hcancel
  | worker_lock w hplace hfree =>
      refine h.frame rfl (fun t ht => ?_) fun _ => ⟨rfl, rfl⟩
      obtain rfl := Option.some.inj ht
      simp [State.inside, WorkerPlace.inside]
  | finalize_lock hplace hfree =>
      refine h.frame rfl (fun t ht => ?_) fun _ => ⟨rfl, rfl⟩
      obtain rfl := Option.some.inj ht
      rfl
  | worker_finish | worker_unlock | finalize_unlock =>
      refine h.frame rfl (fun t ht => ?_) fun _ => ⟨rfl, rfl⟩
      cases ht
  | worker_pop w index queue hplace =>
      have hin : s.inside (.worker w) = true := by simp [State.inside, hplace, WorkerPlace.inside]
      refine h.frame rfl (fun t ht => ?_) fun hmain => ?_
      · have howner := hlock (.worker w) hin
        simp only at ht
        rw [howner] at ht
        obtain rfl := Option.some.inj ht
        simp [State.inside, WorkerPlace.inside]
      · rw [houtside (.worker w) (by simp) hin] at hmain
        cases hmain
  | worker_pop_empty w => exact absurd (by simp) (hfault w)
  | worker_wait w sem hplace | worker_session w index session hplace
  | worker_collected w index hplace | worker_session_post w hplace =>
      exact h.move_worker (by simp [hplace, WorkerPlace.inside]) rfl
  | finalize_call hplace | finalize_join i hi hplace | finalize_joined i hi hplace =>
      exact h.move_finalize (by simp [hplace, FinalizePlace.inside]) (fun _ => ⟨rfl, rfl⟩) rfl
  | finalize_cancel hplace | finalize_cleared hplace | finalize_push i hplace
  | finalize_pushed i hplace | finalize_post i hplace =>
      have hin : s.inside .finalize = true := by
        simp [State.inside, hplace, FinalizePlace.inside]
      refine h.move_finalize (fun _ => rfl) (fun hmain => ?_) rfl
      rw [houtside .finalize (by simp) hin] at hmain
      cases hmain
  | finalize_clear index queue hplace =>
      have hin : s.inside .finalize = true := by
        simp [State.inside, hplace, FinalizePlace.inside]
      refine h.move_finalize id (fun hmain => ?_) rfl
      rw [houtside .finalize (by simp) hin] at hmain
      cases hmain
  | other_session_wait | other_session_post => exact h.frame rfl h.owner fun _ => ⟨rfl, rfl⟩

def Thread.action : Thread k → Action k
  | .main => .main
  | .worker w => .worker w
  | .finalize => .finalize

theorem isSome_step_of_inside {t : Thread k} (h : s.inside t = true) :
    (step n s t.action).isSome = true := by
  cases t with
  | main =>
      simp only [State.inside] at h
      cases hmain : s.main with
      | test | push i => simp only [Thread.action, step, hmain, mainStep]; split <;> rfl
      | queue_not_empty | post i | unlock => simp [Thread.action, step, hmain, mainStep]
      | iteration | lock | sent | sleep | slept | cancelled =>
          simp [hmain, MainPlace.inside] at h
  | worker w =>
      simp only [State.inside] at h
      cases hworker : s.worker w with
      | front | popped i => simp only [Thread.action, step, hworker, workerStep]; split <;> rfl
      | waiting | taken | session_wait i | collecting i | collected | finished | fault =>
          simp [hworker, WorkerPlace.inside] at h
  | finalize =>
      simp only [State.inside] at h
      cases hfinalize : s.finalize with
      | clear | push i =>
          simp only [Thread.action, step, hfinalize, finalizeStep]
          split <;> rfl
      | cancel | post i | unlock => simp [Thread.action, step, hfinalize, finalizeStep]
      | idle | lock | join i | done => simp [hfinalize, FinalizePlace.inside] at h

/-- A main thread that takes the lock with a cancellation pending and finds the queue
not empty can end there with the lock held. -/
theorem dies_with_lock (hmain : s.main = .lock) (hfree : s.lock = none)
    (hcancel : s.cancel = true) (hnonempty : s.pending_host_index_queue ≠ []) :
    ∃ s', Reachable (step n) s s' ∧ s'.main = .cancelled ∧ s'.lock = some .main := by
  have hrun : run (step n) s [.main, .main, .main_cancelled] =
      some { s with lock := some .main, main := .cancelled } := by
    simp [run, step, mainStep, hmain, hfree, hcancel, hnonempty, MainPlace.cancellation_point]
  exact ⟨_, .of_run hrun, rfl, rfl⟩

theorem alive_reaches {sessions : Nat}
    (h : Reaches (step n) LocksSafely (State.init k sessions) s) : Alive s := by
  induction h with
  | start => exact alive_init sessions
  | next hreach hsafe hs ih =>
      have hbefore := hreach.reachable
      have hfault := (shutdown_reachable (hbefore.next trivial hs)).no_fault
      exact alive_step (guarded_reachable hbefore) hfault ih hsafe (step_sound hs)

/-- When the main thread takes the lock with a cancellation pending only while the
queue is empty, it never ends with the lock held, and the owner of the lock always
has a step to take.  A step that breaks the condition can lead to the main thread
ending with the lock held. -/
theorem lock_released_of_locksSafely {sessions : Nat}
    (h : Reaches (step n) LocksSafely (State.init k sessions) s) :
    (s.main = .cancelled → s.lock ≠ some .main) ∧
    (∀ t, s.lock = some t → (step n s t.action).isSome = true) ∧
    (¬LocksSafely s .main → s.lock = none →
      ∃ s', Reachable (step n) s s' ∧ s'.main = .cancelled ∧ s'.lock = some .main) := by
  have halive := alive_reaches h
  refine ⟨fun hmain hlock => ?_, fun t ht => isSome_step_of_inside (halive.owner t ht),
    fun hunsafe hfree => ?_⟩
  · have hin : s.main.inside = true := halive.owner .main hlock
    rw [hmain] at hin
    cases hin
  · simp only [LocksSafely, Classical.not_imp] at hunsafe
    obtain ⟨-, hmain, hcancel, hnonempty⟩ := hunsafe
    exact dies_with_lock hmain hfree hcancel hnonempty

/-- The main thread waits for the lock while `finalize` cancels it.  It gets the lock after the
worker has taken the `-1`, finds the queue empty and lives on to the `print_log` after the
unlock. -/
theorem lock_released_late :
    ∃ s : State 1, s.finalize = .join 0 ∧ s.rounds = 1 ∧ s.main = .cancelled ∧
      s.lock ≠ some .main := by
  obtain ⟨s, hrun, hfinalize, hrounds, hmain⟩ : ∃ s : State 1,
      run (fun s a => if LocksSafely s a then step 1 s a else none) (State.init 1 800)
          (.main :: List.replicate 8 .finalize ++ List.replicate 4 (.worker 0) ++
            List.replicate 6 .main ++ [.main_cancelled]) =
          some s ∧
        s.finalize = .join 0 ∧ s.rounds = 1 ∧ s.main = .cancelled :=
    ⟨_, rfl, rfl, rfl, rfl⟩
  exact ⟨s, hfinalize, hrounds, hmain, (lock_released_of_locksSafely (.of_run hrun)).1 hmain⟩

/-- The main thread waits for the lock while `finalize` has it, gets it before the
worker and is cancelled at the warning. -/
theorem cancelled_with_lock :
    ∃ s : State 1, Reachable (step 1) (State.init 1 800) s ∧ s.main = .cancelled ∧
      s.lock = some .main := by
  obtain ⟨s, hrun, hmain, hlock⟩ : ∃ s : State 1,
      run (step 1) (State.init 1 800)
          (.main :: List.replicate 8 .finalize ++ [.main, .main, .main_cancelled]) = some s ∧
        s.main = .cancelled ∧ s.lock = some .main :=
    ⟨_, rfl, rfl, rfl⟩
  exact ⟨s, .of_run hrun, hmain, hlock⟩

end SnappCollector.CollectionClass
