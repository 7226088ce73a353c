import SnappCollector.Control.Machine
import SnappCollector.Machine.Pool

/-!
# What a step of the control threads can do

`Step` lists the transitions one by one, with their guards.  Invariants are
proved by cases on it; `step_sound` connects it to the step function.
-/

namespace SnappCollector.Control

open Machine

variable {n : Nat}

@[simp] theorem State.setPlace_worker_self (s : State n) (w p) :
    (s.setPlace w p).worker w = p := by
  simp [State.setPlace]

@[simp] theorem State.setPlace_worker_ne (s : State n) {w v : Fin n} (p) (h : v ≠ w) :
    (s.setPlace w p).worker v = s.worker v := by
  simp [State.setPlace, h]

inductive Step (s : State n) : Action n → State n → Prop where
  | accept_failed (hlisten : s.listen = .accepting) :
      Step s (.accept (-1)) { s with exited := true }
  | accept (new_fd : Int32) (hlisten : s.listen = .accepting) (hfd : new_fd ≠ -1) :
      Step s (.accept new_fd)
        { s with
          listen := .accepted ⟨new_fd, s.accepted.length⟩
          accepted := s.accepted ++ [⟨new_fd, s.accepted.length⟩] }
  | listen_lock (c : Accepted) (hlisten : s.listen = .accepted c) (hfree : s.queue_lock = none) :
      Step s .listen { s with queue_lock := some .listen, listen := .locked c }
  | push (c : Accepted) (hlisten : s.listen = .locked c) :
      Step s .listen { s with pending_fd := s.pending_fd ++ [c], listen := .pushed }
  | listen_unlock (hlisten : s.listen = .pushed) :
      Step s .listen { s with queue_lock := none, listen := .unlocked }
  | post (hlisten : s.listen = .unlocked) :
      Step s .listen
        { s with pending_semaphore := s.pending_semaphore + 1, listen := .accepting }
  | wait_interrupted (w : Fin n) (hplace : s.worker w = .waiting) :
      Step s (.wait w true) (s.setPlace w .woken)
  | wait (w : Fin n) (pending_semaphore : Nat) (hplace : s.worker w = .waiting)
      (hsem : s.pending_semaphore = pending_semaphore + 1) :
      Step s (.wait w false) { s.setPlace w .woken with pending_semaphore }
  | lock (w : Fin n) (hplace : s.worker w = .woken) (hfree : s.queue_lock = none) :
      Step s (.worker w) { s.setPlace w .locked with queue_lock := some (.worker w) }
  | front (w : Fin n) (c : Accepted) (pending_fd : List Accepted) (hplace : s.worker w = .locked)
      (hqueue : s.pending_fd = c :: pending_fd) : Step s (.worker w) (s.setPlace w (.front c))
  | front_empty (w : Fin n) (hplace : s.worker w = .locked) (hqueue : s.pending_fd = []) :
      Step s (.worker w) (s.setPlace w .fault)
  | pop (w : Fin n) (c first : Accepted) (pending_fd : List Accepted)
      (hplace : s.worker w = .front c) (hqueue : s.pending_fd = first :: pending_fd) :
      Step s (.worker w)
        { s.setPlace w (.popped c) with pending_fd, taken := s.taken ++ [(w, c)] }
  | pop_empty (w : Fin n) (c : Accepted) (hplace : s.worker w = .front c)
      (hqueue : s.pending_fd = []) : Step s (.worker w) (s.setPlace w .fault)
  | unlock (w : Fin n) (c : Accepted) (hplace : s.worker w = .popped c) :
      Step s (.worker w) { s.setPlace w (.handling c) with queue_lock := none }
  | handle (w : Fin n) (c : Accepted) (hplace : s.worker w = .handling c) :
      Step s (.worker w) (s.setPlace w (.handled c))
  | close (w : Fin n) (c : Accepted) (hplace : s.worker w = .handled c) :
      Step s (.worker w) { s.setPlace w .waiting with closed := s.closed ++ [(w, c)] }

variable {s s' : State n} {a : Action n}

theorem listenStep_sound {place : ListenPlace} (hlisten : s.listen = place)
    (h : listenStep s place = some s') : Step s .listen s' := by
  cases place with
  | accepting => cases h
  | accepted c =>
      simp only [listenStep] at h
      split at h
      · cases h
      · obtain rfl := Option.some.inj h
        exact .listen_lock c hlisten ‹_›
  | locked c =>
      obtain rfl := Option.some.inj h
      exact .push c hlisten
  | pushed =>
      obtain rfl := Option.some.inj h
      exact .listen_unlock hlisten
  | unlocked =>
      obtain rfl := Option.some.inj h
      exact .post hlisten

theorem waitStep_sound {w : Fin n} {interrupted : Bool} (hplace : s.worker w = .waiting)
    (h : waitStep s w interrupted = some s') : Step s (.wait w interrupted) s' := by
  cases interrupted with
  | true =>
      obtain rfl := Option.some.inj h
      exact .wait_interrupted w hplace
  | false =>
      simp only [waitStep, Bool.false_eq_true, if_false] at h
      split at h
      · cases h
      · obtain rfl := Option.some.inj h
        exact .wait w _ hplace ‹_›

theorem workerStep_sound {w : Fin n} {place : WorkerPlace} (hplace : s.worker w = place)
    (h : workerStep s w place = some s') : Step s (.worker w) s' := by
  cases place with
  | waiting => cases h
  | woken =>
      simp only [workerStep] at h
      split at h
      · cases h
      · obtain rfl := Option.some.inj h
        exact .lock w hplace ‹_›
  | locked =>
      simp only [workerStep] at h
      split at h <;> obtain rfl := Option.some.inj h
      · exact .front_empty w hplace ‹_›
      · exact .front w _ _ hplace ‹_›
  | front c =>
      simp only [workerStep] at h
      split at h <;> obtain rfl := Option.some.inj h
      · exact .pop_empty w c hplace ‹_›
      · exact .pop w c _ _ hplace ‹_›
  | popped c =>
      obtain rfl := Option.some.inj h
      exact .unlock w c hplace
  | handling c =>
      obtain rfl := Option.some.inj h
      exact .handle w c hplace
  | handled c =>
      obtain rfl := Option.some.inj h
      exact .close w c hplace
  | fault => cases h

theorem step_sound (h : step s a = some s') : Step s a s' := by
  simp only [step] at h
  split at h
  · cases h
  · cases a with
    | accept new_fd =>
        simp only at h
        split at h
        · obtain rfl := Option.some.inj h
          unfold acceptStep
          split
          next hfailed =>
            subst hfailed
            exact .accept_failed ‹_›
          next hfd => exact .accept new_fd ‹_› hfd
        · cases h
    | listen => exact listenStep_sound rfl h
    | wait w interrupted =>
        simp only at h
        split at h
        · exact waitStep_sound ‹_› h
        · cases h
    | worker w => exact workerStep_sound rfl h

end SnappCollector.Control
