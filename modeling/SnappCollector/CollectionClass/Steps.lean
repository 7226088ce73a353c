import SnappCollector.CollectionClass.Machine

/-!
# What a step of a collection class can do

`Step` lists the transitions one by one, with their guards; `step_sound` connects
it to the step function.
-/

namespace SnappCollector.CollectionClass

variable {k : Nat}

inductive Step (n : Nat) (s : State k) : Action k → State k → Prop where
  | main_iteration (hplace : s.main = .iteration) : Step n s .main { s with main := .lock }
  | main_lock (hplace : s.main = .lock) (hfree : s.lock = none) :
      Step n s .main { s with lock := some .main, main := .test }
  | main_round (hplace : s.main = .test) (hempty : s.pending_host_index_queue = []) :
      Step n s .main { s with main := .push 0, rounds := s.rounds + 1 }
  | main_skip (hplace : s.main = .test) (hnonempty : s.pending_host_index_queue ≠ []) :
      Step n s .main { s with main := .queue_not_empty }
  | main_warned (hplace : s.main = .queue_not_empty) : Step n s .main { s with main := .unlock }
  | main_push (i : Nat) (hplace : s.main = .push i) (hi : i < n) :
      Step n s .main
        { s with
          pending_host_index_queue := s.pending_host_index_queue ++ [(i : Int)]
          main := .post i }
  | main_pushed (i : Nat) (hplace : s.main = .push i) (hi : ¬i < n) :
      Step n s .main { s with main := .unlock }
  | main_post (i : Nat) (hplace : s.main = .post i) :
      Step n s .main { s with worker_semaphore := s.worker_semaphore + 1, main := .push (i + 1) }
  | main_unlock (hplace : s.main = .unlock) : Step n s .main { s with lock := none, main := .sent }
  | main_sent (hplace : s.main = .sent) : Step n s .main { s with main := .sleep }
  | main_sleep (hplace : s.main = .sleep) (hcancel : s.cancel = false) :
      Step n s .main { s with main := .slept }
  | main_slept (hplace : s.main = .slept) : Step n s .main { s with main := .iteration }
  | main_cancelled (hcancel : s.cancel = true) (hplace : s.main.cancellation_point = true) :
      Step n s .main_cancelled { s with main := .cancelled }
  | worker_wait (w : Fin k) (worker_semaphore : Nat) (hplace : s.worker w = .waiting)
      (hsem : s.worker_semaphore = worker_semaphore + 1) :
      Step n s (.worker w)
        { s with worker_semaphore, worker := Function.update s.worker w .taken }
  | worker_lock (w : Fin k) (hplace : s.worker w = .taken) (hfree : s.lock = none) :
      Step n s (.worker w)
        { s with lock := some (.worker w), worker := Function.update s.worker w .front }
  | worker_pop (w : Fin k) (collection_index : Int) (pending_host_index_queue : List Int)
      (hplace : s.worker w = .front)
      (hqueue : s.pending_host_index_queue = collection_index :: pending_host_index_queue) :
      Step n s (.worker w)
        { s with
          pending_host_index_queue
          worker := Function.update s.worker w (.popped collection_index)
          popped := s.popped ++ [(w, collection_index)] }
  | worker_pop_empty (w : Fin k) (hplace : s.worker w = .front)
      (hqueue : s.pending_host_index_queue = []) :
      Step n s (.worker w) { s with worker := Function.update s.worker w .fault }
  | worker_finish (w : Fin k) (hplace : s.worker w = .popped (-1)) :
      Step n s (.worker w)
        { s with lock := none, worker := Function.update s.worker w .finished }
  | worker_unlock (w : Fin k) (collection_index : Int)
      (hplace : s.worker w = .popped collection_index) (hindex : collection_index ≠ -1) :
      Step n s (.worker w)
        { s with
          lock := none, worker := Function.update s.worker w (.session_wait collection_index) }
  | worker_session (w : Fin k) (collection_index : Int) (session_semaphore : Nat)
      (hplace : s.worker w = .session_wait collection_index)
      (hsession : s.session_semaphore = session_semaphore + 1) :
      Step n s (.worker w)
        { s with
          session_semaphore, worker := Function.update s.worker w (.collecting collection_index) }
  | worker_collected (w : Fin k) (collection_index : Int)
      (hplace : s.worker w = .collecting collection_index) :
      Step n s (.worker w) { s with worker := Function.update s.worker w .collected }
  | worker_session_post (w : Fin k) (hplace : s.worker w = .collected) :
      Step n s (.worker w)
        { s with
          session_semaphore := s.session_semaphore + 1
          worker := Function.update s.worker w .waiting }
  | finalize_call (hplace : s.finalize = .idle) :
      Step n s .finalize { s with finalize := .lock }
  | finalize_lock (hplace : s.finalize = .lock) (hfree : s.lock = none) :
      Step n s .finalize { s with lock := some .finalize, finalize := .cancel }
  | finalize_cancel (hplace : s.finalize = .cancel) :
      Step n s .finalize { s with cancel := true, finalize := .clear }
  | finalize_clear (index : Int) (pending_host_index_queue : List Int)
      (hplace : s.finalize = .clear)
      (hqueue : s.pending_host_index_queue = index :: pending_host_index_queue) :
      Step n s .finalize { s with pending_host_index_queue }
  | finalize_cleared (hplace : s.finalize = .clear) (hqueue : s.pending_host_index_queue = []) :
      Step n s .finalize { s with finalize := .push 0 }
  | finalize_push (i : Nat) (hplace : s.finalize = .push i) (hi : i < k) :
      Step n s .finalize
        { s with
          pending_host_index_queue := s.pending_host_index_queue ++ [-1], finalize := .post i }
  | finalize_pushed (i : Nat) (hplace : s.finalize = .push i) (hi : ¬i < k) :
      Step n s .finalize { s with finalize := .unlock }
  | finalize_post (i : Nat) (hplace : s.finalize = .post i) :
      Step n s .finalize
        { s with worker_semaphore := s.worker_semaphore + 1, finalize := .push (i + 1) }
  | finalize_unlock (hplace : s.finalize = .unlock) :
      Step n s .finalize { s with lock := none, finalize := .join 0 }
  | finalize_join (i : Nat) (hi : i < k) (hplace : s.finalize = .join i)
      (hjoined : s.worker ⟨i, hi⟩ = .finished) :
      Step n s .finalize { s with finalize := .join (i + 1) }
  | finalize_joined (i : Nat) (hi : ¬i < k) (hplace : s.finalize = .join i) :
      Step n s .finalize { s with finalize := .done }
  | other_session_wait (session_semaphore : Nat)
      (hsession : s.session_semaphore = session_semaphore + 1) :
      Step n s .other_session_wait
        { s with session_semaphore, other_sessions := s.other_sessions + 1 }
  | other_session_post (other_sessions : Nat) (hother : s.other_sessions = other_sessions + 1) :
      Step n s .other_session_post
        { s with other_sessions, session_semaphore := s.session_semaphore + 1 }

variable {n : Nat} {s s' : State k} {a : Action k}

theorem mainStep_sound {place : MainPlace} (hplace : s.main = place)
    (h : mainStep n s place = some s') : Step n s .main s' := by
  cases place with
  | iteration =>
      obtain rfl := Option.some.inj h
      exact .main_iteration hplace
  | lock =>
      simp only [mainStep] at h
      split at h
      · cases h
      · obtain rfl := Option.some.inj h
        exact .main_lock hplace ‹_›
  | test =>
      simp only [mainStep] at h
      split at h <;> obtain rfl := Option.some.inj h
      · exact .main_round hplace ‹_›
      · exact .main_skip hplace ‹_›
  | queue_not_empty =>
      obtain rfl := Option.some.inj h
      exact .main_warned hplace
  | push i =>
      simp only [mainStep] at h
      split at h <;> obtain rfl := Option.some.inj h
      · exact .main_push i hplace ‹_›
      · exact .main_pushed i hplace ‹_›
  | post i =>
      obtain rfl := Option.some.inj h
      exact .main_post i hplace
  | unlock =>
      obtain rfl := Option.some.inj h
      exact .main_unlock hplace
  | sent =>
      obtain rfl := Option.some.inj h
      exact .main_sent hplace
  | sleep =>
      simp only [mainStep] at h
      split at h
      · cases h
      · obtain rfl := Option.some.inj h
        exact .main_sleep hplace (by simpa using ‹¬s.cancel = true›)
  | slept =>
      obtain rfl := Option.some.inj h
      exact .main_slept hplace
  | cancelled => cases h

theorem workerStep_sound {w : Fin k} {place : WorkerPlace} (hplace : s.worker w = place)
    (h : workerStep s w place = some s') : Step n s (.worker w) s' := by
  cases place with
  | waiting =>
      simp only [workerStep] at h
      split at h
      · cases h
      · obtain rfl := Option.some.inj h
        exact .worker_wait w _ hplace ‹_›
  | taken =>
      simp only [workerStep] at h
      split at h
      · cases h
      · obtain rfl := Option.some.inj h
        exact .worker_lock w hplace ‹_›
  | front =>
      simp only [workerStep] at h
      split at h <;> obtain rfl := Option.some.inj h
      · exact .worker_pop_empty w hplace ‹_›
      · exact .worker_pop w _ _ hplace ‹_›
  | popped collection_index =>
      simp only [workerStep] at h
      split at h <;> obtain rfl := Option.some.inj h
      · rename_i hindex
        exact .worker_finish w (by rw [hplace, hindex])
      · exact .worker_unlock w _ hplace ‹_›
  | session_wait collection_index =>
      simp only [workerStep] at h
      split at h
      · cases h
      · obtain rfl := Option.some.inj h
        exact .worker_session w _ _ hplace ‹_›
  | collecting collection_index =>
      obtain rfl := Option.some.inj h
      exact .worker_collected w _ hplace
  | collected =>
      obtain rfl := Option.some.inj h
      exact .worker_session_post w hplace
  | finished => cases h
  | fault => cases h

theorem finalizeStep_sound {place : FinalizePlace} (hplace : s.finalize = place)
    (h : finalizeStep s place = some s') : Step n s .finalize s' := by
  cases place with
  | idle =>
      obtain rfl := Option.some.inj h
      exact .finalize_call hplace
  | lock =>
      simp only [finalizeStep] at h
      split at h
      · cases h
      · obtain rfl := Option.some.inj h
        exact .finalize_lock hplace ‹_›
  | cancel =>
      obtain rfl := Option.some.inj h
      exact .finalize_cancel hplace
  | clear =>
      simp only [finalizeStep] at h
      split at h <;> obtain rfl := Option.some.inj h
      · exact .finalize_cleared hplace ‹_›
      · exact .finalize_clear _ _ hplace ‹_›
  | push i =>
      simp only [finalizeStep] at h
      split at h <;> obtain rfl := Option.some.inj h
      · exact .finalize_push i hplace ‹_›
      · exact .finalize_pushed i hplace ‹_›
  | post i =>
      obtain rfl := Option.some.inj h
      exact .finalize_post i hplace
  | unlock =>
      obtain rfl := Option.some.inj h
      exact .finalize_unlock hplace
  | join i =>
      simp only [finalizeStep] at h
      split at h
      · rename_i hi
        split at h
        · obtain rfl := Option.some.inj h
          exact .finalize_join i hi hplace ‹_›
        · cases h
      · obtain rfl := Option.some.inj h
        exact .finalize_joined i ‹_› hplace
  | done => cases h

theorem step_sound (h : step n s a = some s') : Step n s a s' := by
  cases a with
  | main => exact mainStep_sound rfl h
  | main_cancelled =>
      simp only [step] at h
      split at h
      · rename_i hcancel
        rw [Bool.and_eq_true] at hcancel
        obtain rfl := Option.some.inj h
        exact .main_cancelled hcancel.1 hcancel.2
      · cases h
  | worker w => exact workerStep_sound rfl h
  | finalize => exact finalizeStep_sound rfl h
  | other_session_wait =>
      simp only [step] at h
      split at h
      · cases h
      · obtain rfl := Option.some.inj h
        exact .other_session_wait _ ‹_›
  | other_session_post =>
      simp only [step] at h
      split at h
      · cases h
      · obtain rfl := Option.some.inj h
        exact .other_session_post _ ‹_›

end SnappCollector.CollectionClass
