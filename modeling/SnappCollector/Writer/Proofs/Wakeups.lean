import SnappCollector.Writer.Proofs.Delivery

/-!
# Tokens and data of one queue

The semaphore of a queue should count its data.  A worker whose `errno` is still
`EINTR` from an earlier call throws away the token of a wait that succeeds, and
nothing ever gives that token back: the queue exceeds its tokens by the number of
such waits.
-/

namespace SnappCollector.Writer

open CLib Machine

variable {n : Nat}

def WorkerPlace.holdsToken : WorkerPlace → Bool
  | .taken | .front => true
  | _ => false

/-- A call has put its datum into queue `q` and not yet posted. -/
def halfway [NeZero n] (q : Fin n) : Option (PushCall × PushPlace) → Bool
  | some (c, .pushed) => queue_index n c.filename = q
  | _ => false

def Balanced (s : State n) (q : Fin n) : Prop :=
  (s.data_queue q).datum_queue.length =
    (s.data_queue q).semaphore + (s.worker q).place.holdsToken.toNat

/-- The step is a wait on queue `q` that succeeds with `EINTR` left in `errno`. -/
def wastesToken (q : Fin n) (s : State n) : Action n → Bool
  | .wait w .success => w = q ∧ (s.worker w).errno = .EINTR
  | _ => false

theorem State.setQueue_lock_tokens (s : State n) (p q : Fin n) (lock : Option (Owner n)) :
    ((s.setQueue p { s.data_queue p with lock }).data_queue q).datum_queue =
        (s.data_queue q).datum_queue ∧
      ((s.setQueue p { s.data_queue p with lock }).data_queue q).semaphore =
        (s.data_queue q).semaphore := by
  by_cases hq : q = p
  · rw [hq, State.setQueue_self]
    exact ⟨rfl, rfl⟩
  · rw [State.setQueue_ne s _ hq]
    exact ⟨rfl, rfl⟩

/-- The balance of queue `q` with `k` tokens wasted. -/
def BalancedUpTo [NeZero n] (q : Fin n) (k : Nat) (s : State n) : Prop :=
  (s.data_queue q).datum_queue.length =
    (s.data_queue q).semaphore + (s.worker q).place.holdsToken.toNat +
      (halfway q s.push).toNat + k

section Step

variable [NeZero n] {q : Fin n} {k : Nat} {libc : Libc} {s s' : State n} {a : Action n}

theorem BalancedUpTo.frame (h : BalancedUpTo q k s)
    (hqueue : (s'.data_queue q).datum_queue = (s.data_queue q).datum_queue ∧
      (s'.data_queue q).semaphore = (s.data_queue q).semaphore)
    (hworker : (s'.worker q).place.holdsToken = (s.worker q).place.holdsToken)
    (hpush : halfway q s'.push = halfway q s.push) : BalancedUpTo q k s' := by
  unfold BalancedUpTo at *
  rw [hqueue.1, hqueue.2, hworker, hpush]
  exact h

theorem balancedUpTo_init : BalancedUpTo q 0 (State.init n) := rfl

theorem balancedUpTo_step (hlocks : Guarded s) (h : BalancedUpTo q k s)
    (hs : Step libc s a s') : BalancedUpTo q (k + (wastesToken q s a).toNat) s' := by
  cases hs with
  | call c hlock =>
      have hidle : s.push = none := hlocks.push_eq_none hlock
      exact h.frame ⟨rfl, rfl⟩ rfl (by simp [halfway, hidle])
  | fill c datum hpush => exact h.frame ⟨rfl, rfl⟩ rfl (by simp [halfway, hpush])
  | abort c hpush hnum => exact h.frame ⟨rfl, rfl⟩ rfl rfl
  | lock_queue c datum hpush hfree =>
      exact h.frame (s.setQueue_lock_tokens _ q _) rfl (by simp [halfway, hpush])
  | enqueue c datum hpush =>
      unfold BalancedUpTo at *
      by_cases hq : queue_index n c.filename = q
      · subst hq
        simp only [hpush, halfway, State.setQueue_self, State.setQueue_worker, wastesToken,
          List.length_append, List.length_singleton, decide_true, Bool.toNat_true,
          Bool.toNat_false] at h ⊢
        omega
      · simpa [hpush, halfway, hq, State.setQueue_ne s _ (Ne.symm hq), wastesToken] using h
  | post c hpush =>
      unfold BalancedUpTo at *
      by_cases hq : queue_index n c.filename = q
      · subst hq
        simp only [hpush, halfway, State.setQueue_self, State.setQueue_worker, wastesToken,
          decide_true, Bool.toNat_true, Bool.toNat_false] at h ⊢
        omega
      · simpa [hpush, halfway, hq, State.setQueue_ne s _ (Ne.symm hq), wastesToken] using h
  | unlock_queue c hpush =>
      exact h.frame (s.setQueue_lock_tokens _ q _) rfl (by simp [halfway, hpush])
  | leave c hpush => exact h.frame ⟨rfl, rfl⟩ rfl (by simp [halfway, hpush])
  | wait_taken w semaphore hplace hsem herrno =>
      unfold BalancedUpTo at *
      by_cases hq : q = w
      · subst hq
        simp only [hplace, hsem, herrno, WorkerPlace.holdsToken, State.setQueue_self,
          State.setPlace_data_queue, State.setPlace_worker_self, State.setPlace_push,
          State.setQueue_push, wastesToken, and_false, decide_false, Bool.toNat_true,
          Bool.toNat_false] at h ⊢
        omega
      · simpa [hq, Ne.symm hq, wastesToken] using h
  | wait_retry w semaphore hplace hsem herrno =>
      unfold BalancedUpTo at *
      by_cases hq : q = w
      · subst hq
        simp only [hplace, hsem, herrno, WorkerPlace.holdsToken, State.setQueue_self,
          State.setQueue_worker, State.setQueue_push, wastesToken, and_self, decide_true,
          Bool.toNat_true, Bool.toNat_false] at h ⊢
        omega
      · simpa [hq, Ne.symm hq, wastesToken] using h
  | pop w entry datum_queue hplace hqueue =>
      unfold BalancedUpTo at *
      by_cases hq : q = w
      · subst hq
        simp only [hplace, hqueue, WorkerPlace.holdsToken, State.setQueue_self,
          State.setPlace_data_queue, State.setPlace_worker_self, State.setPlace_push,
          State.setQueue_push, wastesToken, List.length_cons, Bool.toNat_true,
          Bool.toNat_false] at h ⊢
        omega
      · simpa [hq, wastesToken] using h
  | pop_empty w hplace hqueue =>
      unfold BalancedUpTo at *
      by_cases hq : q = w
      · subst hq
        simp only [hplace, hqueue, WorkerPlace.holdsToken, List.length_nil,
          Bool.toNat_true] at h
        omega
      · simpa [hq, wastesToken] using h
  | worker_lock_queue w hplace | worker_unlock_queue w entry hplace =>
      refine h.frame (s.setQueue_lock_tokens w q _) ?_ rfl
      exact State.place_congr _ rfl (by simp [hplace, WorkerPlace.holdsToken]) q
  | wait_timeout w hplace | wait_interrupted w hplace | worker_lock w entry hplace
  | read w entry file_info rrd_template hplace | read_outside w entry hplace
  | worker_unlock w entry file_info rrd_template hplace
  | update w stack entry file_info rrd_template hplace =>
      refine h.frame ⟨rfl, rfl⟩ ?_ rfl
      exact State.place_congr _ rfl (by simp [hplace, WorkerPlace.holdsToken]) q

/-- Along a run the imbalance is the number of tokens wasted. -/
theorem balancedUpTo_of_run {acts : List (Action n)}
    (hrun : run (step libc) (State.init n) acts = some s) :
    BalancedUpTo q
      (cost (step libc) (fun s a => (wastesToken q s a).toNat) (State.init n) acts) s := by
  have hinv := run_cost (fun s a => (wastesToken q s a).toNat)
    (fun k s => Guarded s ∧ BalancedUpTo q k s) hrun ⟨guarded_init, balancedUpTo_init⟩ ?_
  · simpa using hinv.2
  · intro k s a s' h hs
    have hstep := (step_sound hs).2
    exact ⟨guarded_step h.1 hstep, balancedUpTo_step h.1 h.2 hstep⟩

/-- After a run, with no push halfway, queue `q` is balanced exactly when no wait of
the run wasted a token; and then a worker that waits at semaphore 0 has nothing to do. -/
theorem balanced_iff_keeps {acts : List (Action n)}
    (hrun : run (step libc) (State.init n) acts = some s) (hpush : halfway q s.push = false) :
    (Balanced s q ↔
      Keeps (step libc) (fun s a => wastesToken q s a = false) (State.init n) acts) ∧
    ((s.worker q).place = .waiting → (s.data_queue q).semaphore = 0 →
      ((s.data_queue q).datum_queue = [] ↔
        Keeps (step libc) (fun s a => wastesToken q s a = false) (State.init n) acts)) := by
  have hbal : BalancedUpTo q _ s := balancedUpTo_of_run hrun
  have hkeeps : cost (step libc) (fun s a => (wastesToken q s a).toNat) (State.init n) acts = 0 ↔
      Keeps (step libc) (fun s a => wastesToken q s a = false) (State.init n) acts := by
    rw [cost_eq_zero_iff]
    simp only [Bool.toNat_eq_zero]
  unfold BalancedUpTo at hbal
  rw [hpush, Bool.toNat_false] at hbal
  rw [← hkeeps]
  constructor
  · unfold Balanced
    omega
  · intro hplace hsem
    rw [hplace, hsem] at hbal
    simp only [WorkerPlace.holdsToken, Bool.toNat_false] at hbal
    rw [← List.length_eq_zero_iff]
    omega

/-! ## No worker fails -/

/-- A worker fails at the front of an empty queue or outside a table, or has failed before. -/
theorem Step.fault {v : Fin n} (hs : Step libc s a s') (h : (s'.worker v).place = .fault) :
    (s.worker v).place = .fault ∨
      ((s.worker v).place = .front ∧ (s.data_queue v).datum_queue = []) ∨
      ∃ entry, (s.worker v).place = .reading entry ∧
        (s.writer.file_info[entry.datum.filename_id.toNat]? = none ∨
          s.writer.rrd_template[entry.datum.template_id.toNat]? = none) := by
  cases hs with
  | call | fill | abort | lock_queue | enqueue | post | unlock_queue | leave | wait_retry =>
      exact .inl h
  | wait_timeout w | wait_interrupted w | wait_taken w | worker_lock_queue w | pop w
  | worker_unlock_queue w | worker_lock w | read w | worker_unlock w | update w =>
      exact .inl (State.place_imp (· = .fault) rfl (by simp) h)
  | pop_empty w hplace hqueue =>
      by_cases hv : v = w
      · subst hv
        exact .inr (.inl ⟨hplace, hqueue⟩)
      · exact .inl (by simpa [hv] using h)
  | read_outside w entry hplace hnone =>
      by_cases hv : v = w
      · subst hv
        exact .inr (.inr ⟨entry, hplace, hnone⟩)
      · exact .inl (by simpa [hv] using h)

/-- No worker ever takes the front of an empty queue or reads outside a table. -/
theorem place_ne_fault (h : Reachable (step libc) (State.init n) s) (v : Fin n) :
    (s.worker v).place ≠ .fault := by
  induction h with
  | start => simp [State.init]
  | @next s s' a hreach _ hs ih =>
      intro hfault
      obtain ⟨acts, hrun⟩ := Reachable.exists_run hreach
      have hdata := dataInv_reachable hreach
      rcases (step_sound hs).2.fault hfault with hold | ⟨hplace, hqueue⟩ | ⟨entry, hplace, hnone⟩
      · exact ih hold
      · have hbal : BalancedUpTo v _ s := balancedUpTo_of_run hrun
        unfold BalancedUpTo at hbal
        rw [hplace, hqueue] at hbal
        simp only [WorkerPlace.holdsToken, List.length_nil, Bool.toNat_true] at hbal
        omega
      · have hheld := hdata.held v entry (by rw [hplace]; rfl)
        obtain ⟨hfile, htemplate⟩ := (hdata.names entry (.popped v hheld)).in_bounds
        simp only [List.getElem?_eq_none_iff] at hnone
        omega

end Step

/-! ## A run that wastes a token -/

theorem run_push_first :
    ∃ w entry, run (step decimalLibc) (State.init 1)
        [.call (numberedCall 0), .push, .push, .push, .push, .push, .push] =
      some (pushed w entry [numberedCall 0] [] []) := by
  obtain ⟨datum, hdatum, hnum⟩ := num_ds_numberedCall .empty 0
  have hbuilt : RRD_Writer.empty.new_datum decimalLibc (numberedCall 0) = (_, some datum) :=
    Prod.ext rfl hdatum
  exact ⟨_, _, run_push decimalLibc (numberedCall 0) hbuilt hnum [] [] []⟩

theorem balanced_first :
    ∃ acts, ∃ s : State 1, run (step decimalLibc) (State.init 1) acts = some s ∧
      (s.data_queue 0).datum_queue.length = 1 ∧ Balanced s 0 := by
  obtain ⟨w, entry, hrun⟩ := run_push_first
  refine ⟨_, _, hrun, rfl, ?_⟩
  apply (balanced_iff_keeps hrun rfl).1.mpr
  simp [Keeps, wastesToken]

/-- The wait is interrupted once; the next one succeeds, and its token is lost. -/
theorem unbalanced_after_interrupt :
    ∃ s : State 1, Reachable (step decimalLibc) (State.init 1) s ∧ s.push = none ∧
      (s.worker 0).place = .waiting ∧ (s.data_queue 0).semaphore = 0 ∧
      (s.data_queue 0).datum_queue ≠ [] ∧ ¬Balanced s 0 := by
  obtain ⟨w, entry, hrun⟩ := run_push_first
  obtain ⟨s, hwait, hqueue⟩ : ∃ s : State 1,
      run (step decimalLibc) (pushed w entry [numberedCall 0] [] [])
        [.wait 0 .interrupted, .wait 0 .success] = some s ∧
      s.push = none ∧ (s.worker 0).place = .waiting ∧ s.data_queue 0 = ⟨[entry], 0, none⟩ :=
    ⟨_, rfl, rfl, rfl, rfl⟩
  obtain ⟨hpush, hplace, hqueue⟩ := hqueue
  refine ⟨s, (Reachable.of_run hrun).trans (Reachable.of_run hwait), hpush, hplace, ?_, ?_, ?_⟩
  · rw [hqueue]
  · rw [hqueue]
    exact List.cons_ne_nil _ _
  · simp [Balanced, hqueue, hplace, WorkerPlace.holdsToken]

end SnappCollector.Writer
