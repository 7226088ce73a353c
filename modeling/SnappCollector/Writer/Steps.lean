import SnappCollector.Machine.Pool
import SnappCollector.Writer.Machine

/-!
# What a step of the writer can do

`Step` lists the transitions one by one, with their guards.  Invariants are
proved by cases on it; `step_sound` connects it to the step function.
-/

namespace SnappCollector.Writer

open CLib Machine

variable {n : Nat}

@[simp] theorem State.setPlace_writer (s : State n) (w p) :
    (s.setPlace w p).writer = s.writer := rfl

@[simp] theorem State.setPlace_data_queue (s : State n) (w p) :
    (s.setPlace w p).data_queue = s.data_queue := rfl

@[simp] theorem State.setPlace_lock (s : State n) (w p) :
    (s.setPlace w p).lock = s.lock := rfl

@[simp] theorem State.setPlace_push (s : State n) (w p) :
    (s.setPlace w p).push = s.push := rfl

@[simp] theorem State.setPlace_calls (s : State n) (w p) :
    (s.setPlace w p).calls = s.calls := rfl

@[simp] theorem State.setPlace_popped (s : State n) (w p) :
    (s.setPlace w p).popped = s.popped := rfl

@[simp] theorem State.setPlace_updates (s : State n) (w p) :
    (s.setPlace w p).updates = s.updates := rfl

@[simp] theorem State.setPlace_worker_self (s : State n) (w p) :
    (s.setPlace w p).worker w = { s.worker w with place := p } := by
  simp [State.setPlace]

@[simp] theorem State.setPlace_worker_ne (s : State n) {w v : Fin n} (p) (h : v ≠ w) :
    (s.setPlace w p).worker v = s.worker v := by
  simp [State.setPlace, h]

@[simp] theorem State.setQueue_writer (s : State n) (q r) :
    (s.setQueue q r).writer = s.writer := rfl

@[simp] theorem State.setQueue_worker (s : State n) (q r) :
    (s.setQueue q r).worker = s.worker := rfl

@[simp] theorem State.setQueue_lock (s : State n) (q r) :
    (s.setQueue q r).lock = s.lock := rfl

@[simp] theorem State.setQueue_push (s : State n) (q r) :
    (s.setQueue q r).push = s.push := rfl

@[simp] theorem State.setQueue_calls (s : State n) (q r) :
    (s.setQueue q r).calls = s.calls := rfl

@[simp] theorem State.setQueue_popped (s : State n) (q r) :
    (s.setQueue q r).popped = s.popped := rfl

@[simp] theorem State.setQueue_updates (s : State n) (q r) :
    (s.setQueue q r).updates = s.updates := rfl

@[simp] theorem State.setQueue_self (s : State n) (q r) :
    (s.setQueue q r).data_queue q = r := by
  simp [State.setQueue]

@[simp] theorem State.setQueue_ne (s : State n) {q p : Fin n} (r) (h : p ≠ q) :
    (s.setQueue q r).data_queue p = s.data_queue p := by
  simp [State.setQueue, h]

section Moves

variable {s s' : State n} {w : Fin n} {r : RRD_Writer_worker}

theorem State.place_congr {α : Type} (f : WorkerPlace → α)
    (hworker : s'.worker = Function.update s.worker w r)
    (hr : f r.place = f (s.worker w).place) (v : Fin n) :
    f (s'.worker v).place = f (s.worker v).place := by
  rw [hworker]
  exact update_congr (fun r : RRD_Writer_worker => f r.place) hr v

theorem State.place_imp (p : WorkerPlace → Prop)
    (hworker : s'.worker = Function.update s.worker w r)
    (hr : p r.place → p (s.worker w).place) {v : Fin n} (h : p (s'.worker v).place) :
    p (s.worker v).place := by
  rw [hworker] at h
  exact update_imp (fun r : RRD_Writer_worker => p r.place) hr h

end Moves

inductive Step [NeZero n] (libc : Libc) (s : State n) : Action n → State n → Prop where
  | call (c : PushCall) (hlock : s.lock = none) :
      Step libc s (.call c)
        { s with lock := some .push, push := some (c, .entered), calls := s.calls ++ [c] }
  | fill (c : PushCall) (datum : RRD_datum) (hpush : s.push = some (c, .entered))
      (hdatum : (s.writer.new_datum libc c).2 = some datum) (hnum : datum.num_ds > 0) :
      Step libc s .push
        { s with
          writer := (s.writer.new_datum libc c).1
          push := some (c, .filled datum) }
  | abort (c : PushCall) (hpush : s.push = some (c, .entered))
      (hnum : ∀ datum, (s.writer.new_datum libc c).2 = some datum → ¬datum.num_ds > 0) :
      Step libc s .push
        { s with writer := (s.writer.new_datum libc c).1, aborted := true }
  | lock_queue (c : PushCall) (datum : RRD_datum) (hpush : s.push = some (c, .filled datum))
      (hfree : (s.data_queue (queue_index n c.filename)).lock = none) :
      Step libc s .push
        { s.setQueue (queue_index n c.filename)
            { s.data_queue (queue_index n c.filename) with lock := some .push } with
          push := some (c, .queue_locked datum) }
  | enqueue (c : PushCall) (datum : RRD_datum) (hpush : s.push = some (c, .queue_locked datum)) :
      Step libc s .push
        { s.setQueue (queue_index n c.filename)
            { s.data_queue (queue_index n c.filename) with
              datum_queue :=
                (s.data_queue (queue_index n c.filename)).datum_queue ++ [⟨datum, c⟩] } with
          push := some (c, .pushed) }
  | post (c : PushCall) (hpush : s.push = some (c, .pushed)) :
      Step libc s .push
        { s.setQueue (queue_index n c.filename)
            { s.data_queue (queue_index n c.filename) with
              semaphore := (s.data_queue (queue_index n c.filename)).semaphore + 1 } with
          push := some (c, .posted) }
  | unlock_queue (c : PushCall) (hpush : s.push = some (c, .posted)) :
      Step libc s .push
        { s.setQueue (queue_index n c.filename)
            { s.data_queue (queue_index n c.filename) with lock := none } with
          push := some (c, .queue_unlocked) }
  | leave (c : PushCall) (hpush : s.push = some (c, .queue_unlocked)) :
      Step libc s .push { s with lock := none, push := none }
  | wait_taken (w : Fin n) (semaphore : Nat) (hplace : (s.worker w).place = .waiting)
      (hsem : (s.data_queue w).semaphore = semaphore + 1) (herrno : (s.worker w).errno ≠ .EINTR) :
      Step libc s (.wait w .success)
        ((s.setQueue w { s.data_queue w with semaphore }).setPlace w .taken)
  | wait_retry (w : Fin n) (semaphore : Nat) (hplace : (s.worker w).place = .waiting)
      (hsem : (s.data_queue w).semaphore = semaphore + 1) (herrno : (s.worker w).errno = .EINTR) :
      Step libc s (.wait w .success) (s.setQueue w { s.data_queue w with semaphore })
  | wait_timeout (w : Fin n) (hplace : (s.worker w).place = .waiting) :
      Step libc s (.wait w .timeout)
        { s with worker := Function.update s.worker w ⟨.waiting, .ETIMEDOUT⟩ }
  | wait_interrupted (w : Fin n) (hplace : (s.worker w).place = .waiting) :
      Step libc s (.wait w .interrupted)
        { s with worker := Function.update s.worker w ⟨.waiting, .EINTR⟩ }
  | worker_lock_queue (w : Fin n) (hplace : (s.worker w).place = .taken)
      (hfree : (s.data_queue w).lock = none) :
      Step libc s (.worker w)
        ((s.setQueue w { s.data_queue w with lock := some (.worker w) }).setPlace w .front)
  | pop (w : Fin n) (entry : Entry) (datum_queue : List Entry)
      (hplace : (s.worker w).place = .front)
      (hqueue : (s.data_queue w).datum_queue = entry :: datum_queue) :
      Step libc s (.worker w)
        { (s.setQueue w { s.data_queue w with datum_queue }).setPlace w (.popped entry) with
          popped := s.popped ++ [⟨w, entry⟩] }
  | pop_empty (w : Fin n) (hplace : (s.worker w).place = .front)
      (hqueue : (s.data_queue w).datum_queue = []) :
      Step libc s (.worker w) (s.setPlace w .fault)
  | worker_unlock_queue (w : Fin n) (entry : Entry) (hplace : (s.worker w).place = .popped entry) :
      Step libc s (.worker w)
        ((s.setQueue w { s.data_queue w with lock := none }).setPlace w (.queue_unlocked entry))
  | worker_lock (w : Fin n) (entry : Entry)
      (hplace : (s.worker w).place = .queue_unlocked entry) (hlock : s.lock = none) :
      Step libc s (.worker w)
        { s.setPlace w (.reading entry) with lock := some (.worker w) }
  | read (w : Fin n) (entry : Entry) (file_info : RRD_File_info) (rrd_template : CStr)
      (hplace : (s.worker w).place = .reading entry)
      (hfile : s.writer.file_info[entry.datum.filename_id.toNat]? = some file_info)
      (htemplate : s.writer.rrd_template[entry.datum.template_id.toNat]? = some rrd_template) :
      Step libc s (.worker w) (s.setPlace w (.read entry file_info rrd_template))
  | read_outside (w : Fin n) (entry : Entry) (hplace : (s.worker w).place = .reading entry)
      (hnone : s.writer.file_info[entry.datum.filename_id.toNat]? = none ∨
        s.writer.rrd_template[entry.datum.template_id.toNat]? = none) :
      Step libc s (.worker w) (s.setPlace w .fault)
  | worker_unlock (w : Fin n) (entry : Entry) (file_info : RRD_File_info) (rrd_template : CStr)
      (hplace : (s.worker w).place = .read entry file_info rrd_template) :
      Step libc s (.worker w)
        { s.setPlace w (.writing entry file_info rrd_template) with lock := none }
  | update (w : Fin n) (stack : CStr) (entry : Entry) (file_info : RRD_File_info)
      (rrd_template : CStr) (hplace : (s.worker w).place = .writing entry file_info rrd_template) :
      Step libc s (.update w stack)
        { s.setPlace w .waiting with
          updates := s.updates ++ [
            { call := entry.call
              filename := strncpy stack file_info.filename (CONST_STRING_SIZE - 1)
              template_str := strncpy stack rrd_template (CONST_STRING_SIZE - 1)
              value_str := value_str libc entry.datum }] }

variable [NeZero n] {libc : Libc} {s s' : State n} {a : Action n}

theorem pushStep_sound {c : PushCall} {place : PushPlace} (hpush : s.push = some (c, place))
    (h : pushStep libc s c place = some s') : Step libc s .push s' := by
  cases place with
  | entered =>
      simp only [pushStep] at h
      cases hdatum : (s.writer.new_datum libc c).2 with
      | some datum =>
          simp only [hdatum] at h
          split at h <;> obtain rfl := Option.some.inj h
          · exact .fill c datum hpush hdatum ‹_›
          · refine .abort c hpush fun datum' hdatum' => ?_
            rw [hdatum] at hdatum'
            cases hdatum'
            assumption
      | none =>
          simp only [hdatum] at h
          obtain rfl := Option.some.inj h
          exact .abort c hpush (by simp [hdatum])
  | filled datum =>
      simp only [pushStep] at h
      split at h
      · cases h
      · obtain rfl := Option.some.inj h
        exact .lock_queue c datum hpush ‹_›
  | queue_locked datum =>
      obtain rfl := Option.some.inj h
      exact .enqueue c datum hpush
  | pushed =>
      obtain rfl := Option.some.inj h
      exact .post c hpush
  | posted =>
      obtain rfl := Option.some.inj h
      exact .unlock_queue c hpush
  | queue_unlocked =>
      obtain rfl := Option.some.inj h
      exact .leave c hpush

theorem waitStep_sound {w : Fin n} {result : WaitResult} (hplace : (s.worker w).place = .waiting)
    (h : waitStep s w result = some s') : Step libc s (.wait w result) s' := by
  cases result with
  | success =>
      simp only [waitStep] at h
      split at h
      · cases h
      · rename_i semaphore hsem
        split at h <;> obtain rfl := Option.some.inj h
        · exact .wait_retry w semaphore hplace hsem ‹_›
        · exact .wait_taken w semaphore hplace hsem ‹_›
  | timeout =>
      obtain rfl := Option.some.inj h
      exact .wait_timeout w hplace
  | interrupted =>
      obtain rfl := Option.some.inj h
      exact .wait_interrupted w hplace

theorem workerStep_sound {w : Fin n} {place : WorkerPlace} (hplace : (s.worker w).place = place)
    (h : workerStep s w place = some s') : Step libc s (.worker w) s' := by
  cases place with
  | waiting => cases h
  | taken =>
      simp only [workerStep] at h
      split at h
      · cases h
      · obtain rfl := Option.some.inj h
        exact .worker_lock_queue w hplace ‹_›
  | front =>
      simp only [workerStep] at h
      split at h <;> obtain rfl := Option.some.inj h
      · exact .pop_empty w hplace ‹_›
      · exact .pop w _ _ hplace ‹_›
  | popped entry =>
      obtain rfl := Option.some.inj h
      exact .worker_unlock_queue w entry hplace
  | queue_unlocked entry =>
      simp only [workerStep] at h
      split at h
      · cases h
      · obtain rfl := Option.some.inj h
        exact .worker_lock w entry hplace ‹_›
  | reading entry =>
      simp only [workerStep] at h
      split at h <;> obtain rfl := Option.some.inj h
      · exact .read w entry _ _ hplace ‹_› ‹_›
      · rename_i hnone
        refine .read_outside w entry hplace ?_
        by_contra hboth
        simp only [not_or, ← ne_eq, Option.ne_none_iff_exists'] at hboth
        obtain ⟨⟨file_info, hfile⟩, rrd_template, htemplate⟩ := hboth
        exact hnone file_info rrd_template hfile htemplate
  | read entry file_info rrd_template =>
      obtain rfl := Option.some.inj h
      exact .worker_unlock w entry file_info rrd_template hplace
  | writing entry file_info rrd_template => cases h
  | fault => cases h

theorem step_sound (h : step libc s a = some s') : s.aborted = false ∧ Step libc s a s' := by
  simp only [step] at h
  split at h
  · cases h
  · rename_i habort
    refine ⟨by simpa using habort, ?_⟩
    cases a with
    | call c =>
        simp only at h
        split at h
        · cases h
        · obtain rfl := Option.some.inj h
          exact .call c ‹_›
    | push =>
        obtain ⟨⟨c, place⟩, hpush, hstep⟩ := Option.bind_eq_some_iff.mp h
        exact pushStep_sound hpush hstep
    | wait w result =>
        simp only at h
        split at h
        · exact waitStep_sound ‹_› h
        · cases h
    | worker w => exact workerStep_sound rfl h
    | update w stack =>
        simp only at h
        cases hplace : (s.worker w).place with
        | writing entry file_info rrd_template =>
            rw [hplace] at h
            obtain rfl := Option.some.inj h
            exact .update w stack entry file_info rrd_template hplace
        | _ =>
            rw [hplace] at h
            cases h

end SnappCollector.Writer
