import SnappCollector.Machine.Progress
import SnappCollector.Writer.Proofs.Wakeups

/-!
# The writer comes to rest

A call waits for the lock of a queue while it holds `RRD_Writer::lock`, a worker never
holds one of the two while it waits for the other, and whoever holds a lock gives it back.
So when no new call comes in, the threads work until nothing is left to do.
-/

namespace SnappCollector.Writer

open CLib Machine

variable {n : Nat}

/-! ## Owners of locks -/

def pushInQueue [NeZero n] (q : Fin n) : Option (PushCall × PushPlace) → Bool
  | some (c, .queue_locked _) | some (c, .pushed) | some (c, .posted) =>
      queue_index n c.filename = q
  | _ => false

def WorkerPlace.inQueue : WorkerPlace → Bool
  | .front | .popped _ => true
  | _ => false

def State.inQueue [NeZero n] (s : State n) (q : Fin n) : Owner n → Bool
  | .push => pushInQueue q s.push
  | .worker w => w = q && (s.worker w).place.inQueue

structure LocksOwned [NeZero n] (s : State n) : Prop where
  lock : Owned s.lock s.inside
  queue : ∀ q, Owned (s.data_queue q).lock (s.inQueue q)

section Moves

variable {s s' : State n}

theorem State.place_mono (p : WorkerPlace → Prop) {w : Fin n} {r : RRD_Writer_worker}
    (hworker : s'.worker = Function.update s.worker w r)
    (hr : p (s.worker w).place → p r.place) {v : Fin n} (h : p (s.worker v).place) :
    p (s'.worker v).place := by
  rw [hworker]
  exact update_mono (fun r : RRD_Writer_worker => p r.place) hr h

variable [NeZero n]

theorem LocksOwned.move_worker (h : LocksOwned s) {w : Fin n} {r : RRD_Writer_worker}
    (hpush : s'.push = s.push) (hworker : s'.worker = Function.update s.worker w r)
    (hlock : s'.lock = s.lock)
    (hqueue : ∀ q, (s'.data_queue q).lock = (s.data_queue q).lock)
    (hinside : (s.worker w).place.inside = true → r.place.inside = true)
    (hinQueue : (s.worker w).place.inQueue = true → r.place.inQueue = true) : LocksOwned s' where
  lock := by
    rw [hlock]
    refine h.lock.frame fun o ho => ?_
    cases o with
    | push => simpa [State.inside, hpush] using ho
    | worker v => exact State.place_mono (·.inside = true) hworker hinside ho
  queue q := by
    rw [hqueue]
    refine (h.queue q).frame fun o ho => ?_
    cases o with
    | push => simpa [State.inQueue, hpush] using ho
    | worker v =>
        simp only [State.inQueue, Bool.and_eq_true] at ho ⊢
        exact ⟨ho.1, State.place_mono (·.inQueue = true) hworker hinQueue ho.2⟩

theorem State.inQueue_of_ne {w q : Fin n} {r : RRD_Writer_worker} (hpush : s'.push = s.push)
    (hworker : s'.worker = Function.update s.worker w r) (hq : q ≠ w) (o : Owner n) :
    s'.inQueue q o = true ↔ s.inQueue q o = true := by
  cases o with
  | push => simp [State.inQueue, hpush]
  | worker v =>
      simp only [State.inQueue, Bool.and_eq_true, decide_eq_true_eq, hworker]
      by_cases hv : v = q
      · rw [Function.update_of_ne (hv ▸ hq)]
      · simp [hv]

end Moves

section Step

variable [NeZero n] {libc : Libc} {s s' : State n} {a : Action n}

end Step

/-! ## Work -/

/-- A step that a thread takes by itself: no new call, and no wait that ends without a token. -/
def Action.work : Action n → Bool
  | .push | .worker _ | .update _ _ | .wait _ .success => true
  | .call _ | .wait _ .timeout | .wait _ .interrupted => false

/-- The steps that the call inside makes necessary: its own, and eight of a worker behind its
post. -/
def pushWork : Option (PushCall × PushPlace) → Nat
  | none => 0
  | some (_, .entered) => 14
  | some (_, .filled _) => 13
  | some (_, .queue_locked _) => 12
  | some (_, .pushed) => 11
  | some (_, .posted) => 2
  | some (_, .queue_unlocked) => 1

def WorkerPlace.work : WorkerPlace → Nat
  | .taken => 7
  | .front => 6
  | .popped _ => 5
  | .queue_unlocked _ => 4
  | .reading _ => 3
  | .read .. => 2
  | .writing .. => 1
  | .waiting | .fault => 0

/-- The steps that worker `q` has to take before it waits at semaphore 0. -/
def State.queueWork (s : State n) (q : Fin n) : Nat :=
  8 * (s.data_queue q).semaphore + (s.worker q).place.work

def State.workLeft (s : State n) : Nat :=
  if s.aborted then 0 else pushWork s.push + ∑ q, s.queueWork q

/-- Nobody is inside, and every worker waits at semaphore 0. -/
structure State.AtRest (s : State n) : Prop where
  push : s.push = none
  waiting : ∀ w, (s.worker w).place = .waiting
  semaphore : ∀ w, (s.data_queue w).semaphore = 0

section Measure

variable {s s' : State n}

theorem State.workLeft_lt_of_push (halive : s.aborted = false) (halive' : s'.aborted = false)
    (hsame : ∀ q, s'.queueWork q = s.queueWork q)
    (hless : pushWork s'.push < pushWork s.push) : s'.workLeft < s.workLeft := by
  have hsum : ∑ q, s'.queueWork q = ∑ q, s.queueWork q := Finset.sum_congr rfl fun q _ => hsame q
  simp only [State.workLeft, halive, halive', Bool.false_eq_true, if_false]
  omega

theorem State.workLeft_lt_of_queue (q : Fin n) (halive : s.aborted = false)
    (halive' : s'.aborted = false) (hother : ∀ p, p ≠ q → s'.queueWork p = s.queueWork p)
    (hless : pushWork s'.push + s'.queueWork q < pushWork s.push + s.queueWork q) :
    s'.workLeft < s.workLeft := by
  have hsum := sum_add_of_eq hother
  simp only [State.workLeft, halive, halive', Bool.false_eq_true, if_false]
  omega

theorem State.queueWork_setQueue_lock (s : State n) (p q : Fin n) (lock : Option (Owner n)) :
    (s.setQueue p { s.data_queue p with lock }).queueWork q = s.queueWork q := by
  simp only [State.queueWork, (s.setQueue_lock_tokens p q lock).2, State.setQueue_worker]

theorem State.queueWork_of_ne {w q : Fin n} {queue : RRD_queue n} {r : RRD_Writer_worker}
    (hdata : s'.data_queue = Function.update s.data_queue w queue)
    (hworker : s'.worker = Function.update s.worker w r) (hq : q ≠ w) :
    s'.queueWork q = s.queueWork q := by
  rw [State.queueWork, State.queueWork, hdata, hworker, Function.update_of_ne hq,
    Function.update_of_ne hq]

theorem State.workLeft_lt_of_place {w : Fin n} {p : WorkerPlace} (halive : s.aborted = false)
    (halive' : s'.aborted = false) (hpush : s'.push = s.push)
    (hworker : s'.worker = Function.update s.worker w { s.worker w with place := p })
    (hsem : ∀ q, (s'.data_queue q).semaphore = (s.data_queue q).semaphore)
    (hless : p.work < (s.worker w).place.work) : s'.workLeft < s.workLeft := by
  refine State.workLeft_lt_of_queue w halive halive' (fun q hq => ?_) ?_
  · rw [State.queueWork, State.queueWork, hsem, hworker, Function.update_of_ne hq]
  · simp only [State.queueWork, hsem, hworker, hpush, Function.update_self]
    omega

end Measure

section Step

variable [NeZero n] {libc : Libc} {s s' : State n} {a : Action n}

theorem workLeft_step (hfault : ∀ v, (s'.worker v).place ≠ .fault) (halive : s.aborted = false)
    (hwork : a.work = true) (hs : Step libc s a s') : s'.workLeft < s.workLeft := by
  cases hs with
  | call | wait_timeout | wait_interrupted => cases hwork
  | fill c datum hpush | leave c hpush =>
      exact State.workLeft_lt_of_push halive halive (fun _ => rfl) (by simp [hpush, pushWork])
  | abort c hpush =>
      simp only [State.workLeft, halive, hpush, pushWork, if_true, Bool.false_eq_true, if_false]
      omega
  | lock_queue c datum hpush | unlock_queue c hpush =>
      exact State.workLeft_lt_of_push halive halive (s.queueWork_setQueue_lock _ · _)
        (by simp [hpush, pushWork])
  | enqueue c datum hpush =>
      refine State.workLeft_lt_of_push halive halive (fun q => ?_) (by simp [hpush, pushWork])
      by_cases hq : q = queue_index n c.filename
      · subst hq
        simp [State.queueWork]
      · simp [State.queueWork, State.setQueue, hq]
  | post c hpush =>
      refine State.workLeft_lt_of_queue (queue_index n c.filename) halive halive
        (fun q hq => ?_) ?_
      · simp [State.queueWork, State.setQueue, hq]
      · simp only [State.queueWork, hpush, pushWork, State.setQueue_self, State.setQueue_worker]
        omega
  | wait_taken w semaphore hplace hsem herrno =>
      refine State.workLeft_lt_of_queue w halive halive
        (fun q => State.queueWork_of_ne rfl rfl) ?_
      simp only [State.queueWork, hplace, hsem, WorkerPlace.work, State.setPlace_push,
        State.setQueue_push, State.setPlace_data_queue, State.setQueue_self,
        State.setPlace_worker_self]
      omega
  | wait_retry w semaphore hplace hsem herrno =>
      refine State.workLeft_lt_of_queue w halive halive (fun q hq => ?_) ?_
      · simp [State.queueWork, State.setQueue, hq]
      · simp only [State.queueWork, hsem, State.setQueue_push, State.setQueue_self,
          State.setQueue_worker]
        omega
  | worker_lock_queue w hplace | worker_unlock_queue w entry hplace =>
      exact State.workLeft_lt_of_place halive halive rfl rfl
        (fun q => (s.setQueue_lock_tokens w q _).2) (by simp [hplace, WorkerPlace.work])
  | pop w entry datum_queue hplace hqueue =>
      refine State.workLeft_lt_of_place halive halive rfl rfl (fun q => ?_)
        (by simp [hplace, WorkerPlace.work])
      by_cases hq : q = w
      · subst hq
        simp
      · simp [State.setQueue, hq]
  | worker_lock w entry hplace | read w entry file_info rrd_template hplace
  | worker_unlock w entry file_info rrd_template hplace
  | update w stack entry file_info rrd_template hplace =>
      exact State.workLeft_lt_of_place halive halive rfl rfl (fun _ => rfl)
        (by simp [hplace, WorkerPlace.work])
  | pop_empty w | read_outside w => exact absurd (by simp) (hfault w)

/-! ## No deadlock -/

end Step

end SnappCollector.Writer
