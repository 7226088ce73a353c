import SnappCollector.CollectionClass.Steps
import SnappCollector.Machine.Mutex

/-!
# Who holds `SQL_Collection_Class::lock`
-/

namespace SnappCollector.CollectionClass

open Machine

variable {k : Nat}

def MainPlace.inside : MainPlace → Bool
  | .test | .queue_not_empty | .push _ | .post _ | .unlock => true
  | _ => false

def WorkerPlace.inside : WorkerPlace → Bool
  | .front | .popped _ => true
  | _ => false

def FinalizePlace.inside : FinalizePlace → Bool
  | .cancel | .clear | .push _ | .post _ | .unlock => true
  | _ => false

def State.inside (s : State k) : Thread k → Bool
  | .main => s.main.inside
  | .worker w => (s.worker w).inside
  | .finalize => s.finalize.inside

section Moves

variable {s s' : State k}

theorem State.inside_of_main (hmain : s'.main.inside = true → s.main.inside = true)
    (hworker : s'.worker = s.worker) (hfinalize : s'.finalize = s.finalize) (t : Thread k) :
    s'.inside t = true → s.inside t = true := by
  cases t with
  | main => exact hmain
  | worker w => simp [State.inside, hworker]
  | finalize => simp [State.inside, hfinalize]

theorem State.inside_of_worker {w : Fin k} {p : WorkerPlace}
    (hp : p.inside = true → (s.worker w).inside = true) (hmain : s'.main = s.main)
    (hworker : s'.worker = Function.update s.worker w p) (hfinalize : s'.finalize = s.finalize)
    (t : Thread k) : s'.inside t = true → s.inside t = true := by
  cases t with
  | main => simp [State.inside, hmain]
  | worker v =>
      simp only [State.inside, hworker]
      exact update_imp (WorkerPlace.inside · = true) hp
  | finalize => simp [State.inside, hfinalize]

theorem State.inside_of_finalize (hmain : s'.main = s.main) (hworker : s'.worker = s.worker)
    (hfinalize : s'.finalize.inside = true → s.finalize.inside = true) (t : Thread k) :
    s'.inside t = true → s.inside t = true := by
  cases t with
  | main => simp [State.inside, hmain]
  | worker w => simp [State.inside, hworker]
  | finalize => exact hfinalize

end Moves

def Guarded (s : State k) : Prop := Guards s.lock s.inside

theorem guarded_init (sessions : Nat) : Guarded (State.init k sessions) := by
  intro t ht
  cases t <;> cases ht

variable {n : Nat} {s s' : State k} {a : Action k}

theorem guarded_step (h : Guarded s) (hs : Step n s a s') : Guarded s' := by
  have hlocked : ∀ t, s.inside t = true → Guards (some t) s.inside := by
    intro t ht
    rw [← h t ht]
    exact h
  cases hs with
  | main_lock hplace hfree =>
      rw [Guarded, hfree] at h
      exact h.acquire fun u hu => by
        cases u with
        | main => exact absurd rfl hu
        | worker w => exact id
        | finalize => exact id
  | worker_lock w hplace hfree =>
      rw [Guarded, hfree] at h
      exact h.acquire fun u hu => by
        cases u with
        | main => exact id
        | worker v =>
            have hv : v ≠ w := fun heq => hu (heq ▸ rfl)
            simp [State.inside, hv]
        | finalize => exact id
  | finalize_lock hplace hfree =>
      rw [Guarded, hfree] at h
      exact h.acquire fun u hu => by
        cases u with
        | main => exact id
        | worker w => exact id
        | finalize => exact absurd rfl hu
  | main_unlock hplace =>
      have hin := hlocked .main (by simp [State.inside, hplace, MainPlace.inside])
      exact hin.release rfl (State.inside_of_main (by simp [MainPlace.inside]) rfl rfl)
  | worker_finish w hplace =>
      have hin := hlocked (.worker w) (by simp [State.inside, hplace, WorkerPlace.inside])
      refine hin.release (by simp [State.inside, WorkerPlace.inside]) ?_
      exact State.inside_of_worker (by simp [WorkerPlace.inside]) rfl rfl rfl
  | worker_unlock w collection_index hplace hindex =>
      have hin := hlocked (.worker w) (by simp [State.inside, hplace, WorkerPlace.inside])
      refine hin.release (by simp [State.inside, WorkerPlace.inside]) ?_
      exact State.inside_of_worker (by simp [WorkerPlace.inside]) rfl rfl rfl
  | finalize_unlock hplace =>
      have hin := hlocked .finalize (by simp [State.inside, hplace, FinalizePlace.inside])
      exact hin.release rfl (State.inside_of_finalize rfl rfl (by simp [FinalizePlace.inside]))
  | main_round hplace | main_skip hplace | main_warned hplace | main_push i hplace
  | main_pushed i hplace | main_post i hplace | main_iteration | main_sent | main_sleep
  | main_slept | main_cancelled =>
      exact h.frame (State.inside_of_main (by simp [*, MainPlace.inside]) rfl rfl)
  | worker_wait w worker_semaphore hplace | worker_pop w index queue hplace
  | worker_pop_empty w hplace | worker_session w index session hplace
  | worker_collected w index hplace | worker_session_post w hplace =>
      exact h.frame (State.inside_of_worker (by simp [hplace, WorkerPlace.inside]) rfl rfl rfl)
  | finalize_call hplace | finalize_cancel hplace | finalize_clear index queue hplace
  | finalize_cleared hplace | finalize_push i hplace | finalize_pushed i hplace
  | finalize_post i hplace | finalize_join i hi hplace | finalize_joined i hi hplace =>
      exact h.frame (State.inside_of_finalize rfl rfl (by simp [*, FinalizePlace.inside]))
  | other_session_wait | other_session_post => exact h

theorem guarded_reachable {sessions : Nat}
    (h : Reachable (step n) (State.init k sessions) s) : Guarded s :=
  h.invariant (guarded_init sessions) fun _ _ _ hinv _ hs => guarded_step hinv (step_sound hs)

end SnappCollector.CollectionClass
