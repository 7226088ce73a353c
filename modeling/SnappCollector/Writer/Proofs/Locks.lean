import SnappCollector.Machine.Mutex
import SnappCollector.Writer.Steps

/-!
# Who holds `RRD_Writer::lock`

The call inside `push_data` and the workers at the tables exclude each other.
-/

namespace SnappCollector.Writer

open CLib Machine

variable {n : Nat}

def WorkerPlace.inside : WorkerPlace → Bool
  | .reading _ | .read .. => true
  | _ => false

def State.inside (s : State n) : Owner n → Bool
  | .push => s.push.isSome
  | .worker w => (s.worker w).place.inside

section Moves

variable {s s' : State n}

theorem State.inside_of_push (hpush : s'.push.isSome = true → s.push.isSome = true)
    (hworker : s'.worker = s.worker) (o : Owner n) :
    s'.inside o = true → s.inside o = true := by
  cases o with
  | push => exact hpush
  | worker w => simp [State.inside, hworker]

theorem State.inside_of_worker {w : Fin n} {r : RRD_Writer_worker}
    (hr : r.place.inside = true → (s.worker w).place.inside = true) (hpush : s'.push = s.push)
    (hworker : s'.worker = Function.update s.worker w r) (o : Owner n) :
    s'.inside o = true → s.inside o = true := by
  cases o with
  | push => simp [State.inside, hpush]
  | worker v => exact State.place_imp (·.inside = true) hworker hr

end Moves

/-- Whoever is between lock and unlock holds the lock. -/
def Guarded (s : State n) : Prop := Guards s.lock s.inside

theorem guarded_init : Guarded (State.init n) := by
  intro o ho
  cases o <;> cases ho

theorem Guarded.push_eq_none {s : State n} (h : Guarded s) (hfree : s.lock = none) :
    s.push = none := by
  rw [Guarded, hfree] at h
  have hout := h.outside_of_free .push
  simpa [State.inside] using hout

variable [NeZero n] {libc : Libc} {s s' : State n} {a : Action n}

theorem guarded_step (h : Guarded s) (hs : Step libc s a s') : Guarded s' := by
  have hlocked : ∀ o, s.inside o = true → Guards (some o) s.inside := by
    intro o ho
    rw [← h o ho]
    exact h
  cases hs with
  | call c hfree =>
      rw [Guarded, hfree] at h
      exact h.acquire fun o ho => by
        cases o with
        | push => exact absurd rfl ho
        | worker w => exact id
  | worker_lock w entry hplace hfree =>
      rw [Guarded, hfree] at h
      exact h.acquire fun o ho => by
        cases o with
        | push => exact id
        | worker v =>
            have hv : v ≠ w := fun heq => ho (heq ▸ rfl)
            simp [State.inside, hv]
  | leave c hpush =>
      have hin := hlocked .push (by simp [State.inside, hpush])
      exact hin.release rfl (State.inside_of_push (by simp) rfl)
  | worker_unlock w entry file_info rrd_template hplace =>
      have hin := hlocked (.worker w) (by simp [State.inside, hplace, WorkerPlace.inside])
      refine hin.release (by simp [State.inside, WorkerPlace.inside]) ?_
      exact State.inside_of_worker (by simp [WorkerPlace.inside]) rfl rfl
  | fill c datum hpush | abort c hpush | lock_queue c datum hpush | enqueue c datum hpush
  | post c hpush | unlock_queue c hpush =>
      exact h.frame (State.inside_of_push (by simp [hpush]) rfl)
  | wait_retry w semaphore hplace => exact h
  | wait_taken w semaphore hplace | wait_timeout w hplace | wait_interrupted w hplace
  | worker_lock_queue w hplace | pop w entry datum_queue hplace | pop_empty w hplace
  | worker_unlock_queue w entry hplace | read w entry file_info rrd_template hplace
  | read_outside w entry hplace | update w stack entry file_info rrd_template hplace =>
      exact h.frame (State.inside_of_worker (by simp [hplace, WorkerPlace.inside]) rfl rfl)

theorem guarded_reachable (h : Reachable (step libc) (State.init n) s) : Guarded s :=
  h.invariant guarded_init fun _ _ _ hinv _ hs => guarded_step hinv (step_sound hs).2

end SnappCollector.Writer
