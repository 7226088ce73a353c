import SnappCollector.CollectionClass.Proofs.Cancellation

/-!
# What the queue, the semaphore and the sessions owe each other

Every index in the queue has a token that some worker can take or has taken, sessions are
conserved, and `finalize` joins in order.
-/

namespace SnappCollector.CollectionClass

open Machine

variable {k n : Nat}

def WorkerPlace.holdsSession : WorkerPlace → Bool
  | .collecting _ | .collected => true
  | _ => false

/-- A `-1` has been pushed and its post is still to come. -/
def FinalizePlace.owesPost : FinalizePlace → Bool
  | .post _ => true
  | _ => false

def FinalizePlace.cancelled : FinalizePlace → Bool
  | .idle | .lock | .cancel => false
  | _ => true

structure Ledger (sessions : Nat) (s : State k) : Prop where
  tokens : s.pending_host_index_queue.length ≤
    s.worker_semaphore + numAt WorkerPlace.holdsToken s.worker + s.main.owesPost.toNat +
      s.finalize.owesPost.toNat
  sessions : s.session_semaphore + s.other_sessions + numAt WorkerPlace.holdsSession s.worker =
    sessions
  joined : ∀ i, s.finalize = .join i → ∀ w : Fin k, w.val < i → s.worker w = .finished
  done : s.finalize = .done → ∀ w, s.worker w = .finished
  cancel : s.cancel = s.finalize.cancelled
  ended : s.main = .cancelled → s.cancel = true

theorem ledger_init (sessions : Nat) : Ledger sessions (State.init k sessions) where
  tokens := Nat.zero_le _
  sessions := by simp [State.init, numAt, WorkerPlace.holdsSession]
  joined i h := by cases h
  done h := by cases h
  cancel := rfl
  ended h := by cases h

section Moves

variable {sessions : Nat} {s s' : State k}

theorem Ledger.move_main (h : Ledger sessions s) (hworker : s'.worker = s.worker)
    (hsession : s'.session_semaphore = s.session_semaphore)
    (hother : s'.other_sessions = s.other_sessions) (hfinalize : s'.finalize = s.finalize)
    (hcancel : s'.cancel = s.cancel)
    (htokens : s'.pending_host_index_queue.length + s.worker_semaphore + s.main.owesPost.toNat ≤
      s.pending_host_index_queue.length + s'.worker_semaphore + s'.main.owesPost.toNat)
    (hended : s'.main = .cancelled → s.cancel = true) :
    Ledger sessions s' where
  tokens := by
    have hold := h.tokens
    rw [hworker, hfinalize]
    omega
  sessions := by rw [hsession, hother, hworker, h.sessions]
  joined := by
    rw [hfinalize, hworker]
    exact h.joined
  done := by
    rw [hfinalize, hworker]
    exact h.done
  cancel := by rw [hcancel, hfinalize, h.cancel]
  ended hmain := by
    rw [hcancel]
    exact hended hmain

theorem Ledger.move_worker (h : Ledger sessions s) {w : Fin k} {p : WorkerPlace}
    (hw : s.worker w ≠ .finished) (hworker : s'.worker = Function.update s.worker w p)
    (hmain : s'.main = s.main) (hfinalize : s'.finalize = s.finalize)
    (hcancel : s'.cancel = s.cancel) (hother : s'.other_sessions = s.other_sessions)
    (htokens : s'.pending_host_index_queue.length + s.worker_semaphore +
      (s.worker w).holdsToken.toNat ≤
        s.pending_host_index_queue.length + s'.worker_semaphore + p.holdsToken.toNat)
    (hsession : s'.session_semaphore + p.holdsSession.toNat =
      s.session_semaphore + (s.worker w).holdsSession.toNat) : Ledger sessions s' where
  tokens := by
    have hold := h.tokens
    have hcount := numAt_update WorkerPlace.holdsToken s.worker w p
    rw [hworker, hmain, hfinalize]
    omega
  sessions := by
    have hold := h.sessions
    have hcount := numAt_update WorkerPlace.holdsSession s.worker w p
    rw [hworker, hother]
    omega
  joined i hi v hv := by
    rw [hfinalize] at hi
    have hfinished := h.joined i hi v hv
    have hne : v ≠ w := by
      rintro rfl
      exact hw hfinished
    rw [hworker, Function.update_of_ne hne, hfinished]
  done hdone := by
    rw [hfinalize] at hdone
    exact absurd (h.done hdone w) hw
  cancel := by rw [hcancel, hfinalize, h.cancel]
  ended := by
    rw [hmain, hcancel]
    exact h.ended

theorem Ledger.move_finalize (h : Ledger sessions s) (hworker : s'.worker = s.worker)
    (hmain : s'.main = s.main) (hsession : s'.session_semaphore = s.session_semaphore)
    (hother : s'.other_sessions = s.other_sessions)
    (htokens : s'.pending_host_index_queue.length + s.worker_semaphore +
      s.finalize.owesPost.toNat ≤
        s.pending_host_index_queue.length + s'.worker_semaphore + s'.finalize.owesPost.toNat)
    (hjoined : ∀ i, s'.finalize = .join i → ∀ w : Fin k, w.val < i → s.worker w = .finished)
    (hdone : s'.finalize = .done → ∀ w, s.worker w = .finished)
    (hcancel : s'.cancel = s'.finalize.cancelled) (hkept : s.cancel = true → s'.cancel = true) :
    Ledger sessions s' where
  tokens := by
    have hold := h.tokens
    rw [hworker, hmain]
    omega
  sessions := by rw [hsession, hother, hworker, h.sessions]
  joined := by
    rw [hworker]
    exact hjoined
  done := by
    rw [hworker]
    exact hdone
  cancel := hcancel
  ended := by
    rw [hmain]
    exact fun hdead => hkept (h.ended hdead)

end Moves

section Step

variable {sessions : Nat} {s s' : State k} {a : Action k}

theorem ledger_step (h : Ledger sessions s) (hfault : ∀ w, s'.worker w ≠ .fault)
    (hs : Step n s a s') : Ledger sessions s' := by
  cases hs with
  | main_iteration hplace | main_lock hplace | main_skip hplace | main_warned hplace
  | main_pushed i hplace | main_unlock hplace | main_sent hplace | main_sleep hplace
  | main_slept hplace | main_round hplace =>
      exact h.move_main rfl rfl rfl rfl rfl (by simp [hplace, MainPlace.owesPost]) (by simp)
  | main_push i hplace | main_post i hplace =>
      refine h.move_main rfl rfl rfl rfl rfl ?_ (by simp)
      simp only [hplace, MainPlace.owesPost, List.length_append, List.length_singleton,
        Bool.toNat_true, Bool.toNat_false]
      omega
  | main_cancelled hcancel hplace =>
      refine h.move_main rfl rfl rfl rfl rfl ?_ fun _ => hcancel
      cases hmain : s.main <;> simp_all [MainPlace.cancellation_point, MainPlace.owesPost]
  | worker_wait w worker_semaphore hplace hsem =>
      refine h.move_worker (by simp [hplace]) rfl rfl rfl rfl rfl ?_ ?_
      · simp only [hplace, WorkerPlace.holdsToken, hsem, Bool.toNat_true, Bool.toNat_false]
        omega
      · simp [hplace, WorkerPlace.holdsSession]
  | worker_lock w hplace | worker_finish w hplace | worker_unlock w index hplace
  | worker_collected w index hplace | worker_session_post w hplace =>
      refine h.move_worker (by simp [hplace]) rfl rfl rfl rfl rfl ?_ ?_
      · simp [hplace, WorkerPlace.holdsToken]
      · simp [hplace, WorkerPlace.holdsSession]
  | worker_pop w index queue hplace hqueue =>
      refine h.move_worker (by simp [hplace]) rfl rfl rfl rfl rfl ?_ ?_
      · simp only [hplace, WorkerPlace.holdsToken, hqueue, List.length_cons, Bool.toNat_true,
          Bool.toNat_false]
        omega
      · simp [hplace, WorkerPlace.holdsSession]
  | worker_pop_empty w hplace hqueue => exact absurd (Function.update_self ..) (hfault w)
  | worker_session w index session_semaphore hplace hsession =>
      refine h.move_worker (by simp [hplace]) rfl rfl rfl rfl rfl ?_ ?_
      · simp [hplace, WorkerPlace.holdsToken]
      · simp [hplace, WorkerPlace.holdsSession, hsession]
  | finalize_call hplace | finalize_lock hplace =>
      have hcancel := h.cancel
      rw [hplace] at hcancel
      exact h.move_finalize rfl rfl rfl rfl (by simp [hplace, FinalizePlace.owesPost]) (by simp)
        (by simp) hcancel id
  | finalize_cancel hplace =>
      exact h.move_finalize rfl rfl rfl rfl (by simp [hplace, FinalizePlace.owesPost]) (by simp)
        (by simp) rfl fun _ => rfl
  | finalize_clear index queue hplace hqueue =>
      have hcancel := h.cancel
      exact h.move_finalize rfl rfl rfl rfl (by simp [hqueue]) (by simp [hplace])
        (by simp [hplace]) hcancel id
  | finalize_cleared hplace | finalize_pushed i hplace =>
      have hcancel := h.cancel
      rw [hplace] at hcancel
      exact h.move_finalize rfl rfl rfl rfl (by simp [hplace, FinalizePlace.owesPost]) (by simp)
        (by simp) hcancel id
  | finalize_push i hplace | finalize_post i hplace =>
      have hcancel := h.cancel
      rw [hplace] at hcancel
      refine h.move_finalize rfl rfl rfl rfl ?_ (by simp) (by simp) hcancel id
      simp only [hplace, FinalizePlace.owesPost, List.length_append, List.length_singleton,
        Bool.toNat_true, Bool.toNat_false]
      omega
  | finalize_unlock hplace =>
      have hcancel := h.cancel
      rw [hplace] at hcancel
      refine h.move_finalize rfl rfl rfl rfl (by simp [hplace, FinalizePlace.owesPost]) ?_ (by simp)
        hcancel id
      intro i hi w hw
      cases hi
      exact absurd hw (Nat.not_lt_zero _)
  | finalize_join i hi hplace hjoined =>
      have hcancel := h.cancel
      rw [hplace] at hcancel
      refine h.move_finalize rfl rfl rfl rfl (by simp [hplace, FinalizePlace.owesPost]) ?_ (by simp)
        hcancel id
      intro j hj w hw
      cases hj
      rcases Nat.lt_succ_iff_lt_or_eq.mp hw with hlt | heq
      · exact h.joined i hplace w hlt
      · rwa [show w = ⟨i, hi⟩ from Fin.ext heq]
  | finalize_joined i hi hplace =>
      have hcancel := h.cancel
      rw [hplace] at hcancel
      exact h.move_finalize rfl rfl rfl rfl (by simp [hplace, FinalizePlace.owesPost]) (by simp)
        (fun _ w => h.joined i hplace w (by omega)) hcancel id
  | other_session_wait session_semaphore hsession =>
      have hsessions := h.sessions
      refine ⟨h.tokens, ?_, h.joined, h.done, h.cancel, h.ended⟩
      simp only
      omega
  | other_session_post other_sessions hother =>
      have hsessions := h.sessions
      refine ⟨h.tokens, ?_, h.joined, h.done, h.cancel, h.ended⟩
      simp only
      omega

theorem ledger_reachable (h : Reachable (step n) (State.init k sessions) s) :
    Ledger sessions s := by
  induction h with
  | start => exact ledger_init sessions
  | next hreach hok hs ih =>
      have hfault := (shutdown_reachable (hreach.next trivial hs)).no_fault
      exact ledger_step ih hfault (step_sound hs)

end Step

end SnappCollector.CollectionClass
