import SnappCollector.CollectionClass.Proofs.Exclusion

/-!
# Shutdown of a class

`finalize` replaces the queue by one `-1` for every worker, while workers may hold
tokens for hosts that are gone and a late round may wait for the lock.  After it
the `-1`s in the queue and the workers that have taken one make up all workers,
and a late round finds the queue empty only when every worker has taken its `-1`.
-/

namespace SnappCollector.CollectionClass

open Machine

/-- The worker has popped a `-1`. -/
def WorkerPlace.poisoned : WorkerPlace → Bool
  | .popped i => i = -1
  | .finished => true
  | _ => false

def FinalizePlace.unmarked : FinalizePlace → Bool
  | .idle | .lock | .cancel | .clear => true
  | _ => false

/-- How many `-1`s `finalize` has pushed, until it gives the lock back. -/
def FinalizePlace.marks (k : Nat) : FinalizePlace → Option Nat
  | .push i => some i
  | .post i => some (i + 1)
  | .unlock => some k
  | _ => none

def FinalizePlace.after : FinalizePlace → Bool
  | .join _ | .done => true
  | _ => false

theorem FinalizePlace.phases (p : FinalizePlace) :
    p.before = true ∨ p.inside = true ∨ p.after = true := by
  cases p <;> simp [FinalizePlace.before, FinalizePlace.inside, FinalizePlace.after]

theorem FinalizePlace.unmarked_of_before {p : FinalizePlace} (h : p.before = true) :
    p.unmarked = true := by
  cases p <;> simp_all [FinalizePlace.before, FinalizePlace.unmarked]

theorem FinalizePlace.of_after {p : FinalizePlace} (h : p.after = true) :
    p.unmarked = false ∧ (∀ k, p.marks k = none) ∧ p.before = false := by
  cases p <;> simp_all [FinalizePlace.before, FinalizePlace.unmarked, FinalizePlace.marks,
    FinalizePlace.after]

theorem FinalizePlace.of_unmarked {p : FinalizePlace} (h : p.unmarked = true) :
    (∀ k, p.marks k = none) ∧ p.after = false := by
  cases p <;> simp_all [FinalizePlace.marks, FinalizePlace.unmarked, FinalizePlace.after]

theorem FinalizePlace.inside_of_marks {p : FinalizePlace} {k i : Nat} (h : p.marks k = some i) :
    p.inside = true := by
  cases p <;> simp_all [FinalizePlace.marks, FinalizePlace.inside]

variable {k n : Nat}

structure Shutdown (s : State k) : Prop where
  unmarked : s.finalize.unmarked = true →
    (∀ w, (s.worker w).poisoned = false) ∧ ∀ i ∈ s.pending_host_index_queue, 0 ≤ i
  marking : ∀ i, s.finalize.marks k = some i →
    s.pending_host_index_queue = List.replicate i (-1) ∧ i ≤ k ∧
      ∀ w, (s.worker w).poisoned = false
  after : s.finalize.after = true →
    (numAt WorkerPlace.poisoned s.worker = k ∧ ∀ i ∈ s.pending_host_index_queue, 0 ≤ i) ∨
    (s.main.pushed = none ∧ ∃ m, s.pending_host_index_queue = List.replicate m (-1) ∧
      m + numAt WorkerPlace.poisoned s.worker = k)
  popped : ∀ w, s.popped.count (w, -1) = (s.worker w).poisoned.toNat
  no_fault : ∀ w, s.worker w ≠ .fault

theorem shutdown_init (sessions : Nat) : Shutdown (State.init k sessions) where
  unmarked _ := ⟨fun _ => rfl, fun i hi => by cases hi⟩
  marking i hi := by cases hi
  after h := by cases h
  popped w := rfl
  no_fault w h := by cases h

section Frame

variable {s s' : State k}

theorem Shutdown.frame (h : Shutdown s)
    (hqueue : s'.pending_host_index_queue = s.pending_host_index_queue)
    (hfinalize : s'.finalize = s.finalize) (hpopped : s'.popped = s.popped)
    (hmain : s.main.pushed = none → s'.main.pushed = none)
    (hpoisoned : ∀ w, (s'.worker w).poisoned = (s.worker w).poisoned)
    (hfault : ∀ w, s'.worker w = .fault → s.worker w = .fault) : Shutdown s' := by
  have hcount : numAt WorkerPlace.poisoned s'.worker = numAt WorkerPlace.poisoned s.worker := by
    simp [numAt, hpoisoned]
  refine ⟨fun hun => ?_, fun i hi => ?_, fun hafter => ?_, fun w => ?_, fun w hw => ?_⟩
  · rw [hfinalize] at hun
    simp only [hpoisoned, hqueue]
    exact h.unmarked hun
  · rw [hfinalize] at hi
    simp only [hpoisoned, hqueue]
    exact h.marking i hi
  · rw [hfinalize] at hafter
    rw [hqueue, hcount]
    rcases h.after hafter with hall | ⟨hnone, hmarks⟩
    · exact .inl hall
    · exact .inr ⟨hmain hnone, hmarks⟩
  · rw [hpopped, hpoisoned]
    exact h.popped w
  · exact h.no_fault w (hfault w hw)

theorem Shutdown.move_worker (h : Shutdown s) {w : Fin k} {p : WorkerPlace}
    (hp : p.poisoned = (s.worker w).poisoned) (hfault : p ≠ .fault)
    (hs' : s' = { s with
      worker := Function.update s.worker w p
      worker_semaphore := s'.worker_semaphore
      lock := s'.lock, session_semaphore := s'.session_semaphore }) : Shutdown s' := by
  rw [hs']
  refine h.frame rfl rfl rfl id (update_congr WorkerPlace.poisoned hp) fun v hv => ?_
  exact update_imp (· = WorkerPlace.fault) (fun heq => absurd heq hfault) hv

theorem Shutdown.of_unmarked (hun : s.finalize.unmarked = true)
    (hclean : ∀ w, (s.worker w).poisoned = false)
    (hnonneg : ∀ i ∈ s.pending_host_index_queue, 0 ≤ i)
    (hpopped : ∀ w, s.popped.count (w, -1) = (s.worker w).poisoned.toNat)
    (hfault : ∀ w, s.worker w ≠ .fault) : Shutdown s := by
  obtain ⟨hmarks, hafter⟩ := FinalizePlace.of_unmarked hun
  refine ⟨fun _ => ⟨hclean, hnonneg⟩, fun i hi => ?_, fun hin => ?_, hpopped, hfault⟩
  · rw [hmarks] at hi
    cases hi
  · rw [hafter] at hin
    cases hin

theorem Shutdown.of_marks {i : Nat} (hmarks : s.finalize.marks k = some i) (hle : i ≤ k)
    (hqueue : s.pending_host_index_queue = List.replicate i (-1))
    (hclean : ∀ w, (s.worker w).poisoned = false)
    (hpopped : ∀ w, s.popped.count (w, -1) = (s.worker w).poisoned.toNat)
    (hfault : ∀ w, s.worker w ≠ .fault) : Shutdown s := by
  refine ⟨fun hun => ?_, fun j hj => ?_, fun hafter => ?_, hpopped, hfault⟩
  · rw [(FinalizePlace.of_unmarked hun).1] at hmarks
    cases hmarks
  · rw [hmarks] at hj
    obtain rfl := Option.some.inj hj
    exact ⟨hqueue, hle, hclean⟩
  · rw [(FinalizePlace.of_after hafter).2.1] at hmarks
    cases hmarks

theorem Shutdown.of_after (hafter : s.finalize.after = true)
    (hcounts : (numAt WorkerPlace.poisoned s.worker = k ∧
        ∀ i ∈ s.pending_host_index_queue, 0 ≤ i) ∨
      (s.main.pushed = none ∧ ∃ m, s.pending_host_index_queue = List.replicate m (-1) ∧
        m + numAt WorkerPlace.poisoned s.worker = k))
    (hpopped : ∀ w, s.popped.count (w, -1) = (s.worker w).poisoned.toNat)
    (hfault : ∀ w, s.worker w ≠ .fault) : Shutdown s := by
  obtain ⟨hmarked, hmarks, -⟩ := FinalizePlace.of_after hafter
  refine ⟨fun hun => ?_, fun i hi => ?_, fun _ => hcounts, hpopped, hfault⟩
  · rw [hmarked] at hun
    cases hun
  · rw [hmarks] at hi
    cases hi

theorem Shutdown.count_popped (h : Shutdown s) {w : Fin k} (index : Int)
    (hclean : (s.worker w).poisoned = false) (v : Fin k) :
    (s.popped ++ [(w, index)]).count (v, -1) =
      (Function.update s.worker w (.popped index) v).poisoned.toNat := by
  have hv := h.popped v
  by_cases hvw : v = w
  · subst hvw
    rw [hclean] at hv
    by_cases hindex : index = -1 <;> simp [List.count_append, hv, hindex, WorkerPlace.poisoned]
  · have hwv : w ≠ v := Ne.symm hvw
    simp [List.count_append, hv, hvw, hwv]

theorem numAt_poisoned_lt {w : Fin k} (hw : (s.worker w).poisoned = false) :
    numAt WorkerPlace.poisoned s.worker < k := by
  have hle : numAt WorkerPlace.poisoned s.worker ≤ Fintype.card (Fin k) := numAt_le_card
  have hne : numAt WorkerPlace.poisoned s.worker ≠ Fintype.card (Fin k) := by
    intro heq
    have hall := numAt_eq_card_iff.mp heq w
    rw [hw] at hall
    cases hall
  rw [Fintype.card_fin] at hle hne
  omega

theorem Shutdown.at_front (h : Shutdown s) (hlock : Guarded s) {w : Fin k}
    (hplace : s.worker w = .front) :
    s.finalize.before = true ∨
      (s.finalize.after = true ∧ s.main.pushed = none ∧
        ∃ m, s.pending_host_index_queue = -1 :: List.replicate m (-1) ∧
          m + 1 + numAt WorkerPlace.poisoned s.worker = k) := by
  have hin : s.inside (.worker w) = true := by simp [State.inside, hplace, WorkerPlace.inside]
  have hout : s.finalize.inside = false :=
    (hlock.outside hin (by simp) : s.inside .finalize = false)
  have hlt := numAt_poisoned_lt (s := s) (w := w) (by rw [hplace]; rfl)
  rcases s.finalize.phases with hbefore | hinside | hafter
  · exact .inl hbefore
  · rw [hout] at hinside
    cases hinside
  · right
    rcases h.after hafter with ⟨hall, -⟩ | ⟨hnone, m, hqueue, hm⟩
    · omega
    · obtain ⟨m', rfl⟩ : ∃ m', m = m' + 1 := ⟨m - 1, by omega⟩
      exact ⟨hafter, hnone, m', hqueue, hm⟩

end Frame

variable {s s' : State k} {a : Action k}

theorem pushed_eq_none_of_finalize (hlock : Guarded s) (h : s.finalize.inside = true) :
    s.main.pushed = none := by
  have hin : s.inside .finalize = true := h
  exact pushed_eq_none hlock hin (by simp)

theorem Shutdown.start_round (h : Shutdown s) (hempty : s.pending_host_index_queue = []) :
    Shutdown { s with main := .push 0, rounds := s.rounds + 1 } := by
  refine ⟨h.unmarked, h.marking, fun hafter => .inl ?_, h.popped, h.no_fault⟩
  rcases h.after hafter with hall | ⟨-, m, hqueue, hm⟩
  · exact hall
  · rw [hempty] at hqueue
    have hzero : m = 0 := by simpa using (congrArg List.length hqueue).symm
    refine ⟨by simpa [hzero] using hm, ?_⟩
    simp [hempty]

/-- The main thread never pushes a host behind a `-1`. -/
theorem Shutdown.push (hlock : Guarded s) (h : Shutdown s) {i : Nat} (hplace : s.main = .push i) :
    Shutdown { s with
      pending_host_index_queue := s.pending_host_index_queue ++ [(i : Int)]
      main := .post i } := by
  have hin : s.inside .main = true := by simp [State.inside, hplace, MainPlace.inside]
  have hout : s.finalize.inside = false :=
    (hlock.outside hin (by simp) : s.inside .finalize = false)
  have hnonneg : (∀ j ∈ s.pending_host_index_queue, 0 ≤ j) →
      ∀ j ∈ s.pending_host_index_queue ++ [(i : Int)], 0 ≤ j := by
    intro hall j hj
    rcases List.mem_append.mp hj with hold | hnew
    · exact hall j hold
    · rw [List.mem_singleton.mp hnew]
      omega
  refine ⟨fun hun => ?_, fun j hj => ?_, fun hafter => ?_, h.popped, h.no_fault⟩
  · exact ⟨(h.unmarked hun).1, hnonneg (h.unmarked hun).2⟩
  · rw [FinalizePlace.inside_of_marks hj] at hout
    cases hout
  · rcases h.after hafter with ⟨hall, hold⟩ | ⟨hnone, -⟩
    · exact .inl ⟨hall, hnonneg hold⟩
    · rw [hplace] at hnone
      cases hnone

/-- What a worker pops is a host before `finalize`, and a `-1` after it. -/
theorem Shutdown.pop (hlock : Guarded s) (h : Shutdown s) {w : Fin k} {index : Int}
    {queue : List Int} (hplace : s.worker w = .front)
    (hqueue : s.pending_host_index_queue = index :: queue) :
    Shutdown { s with
      pending_host_index_queue := queue
      worker := Function.update s.worker w (.popped index)
      popped := s.popped ++ [(w, index)] } := by
  have hclean : (s.worker w).poisoned = false := by rw [hplace]; rfl
  have hpopped := h.count_popped index hclean
  have hfault : ∀ v, Function.update s.worker w (.popped index) v ≠ .fault := by
    intro v hv
    exact h.no_fault v (update_imp (· = WorkerPlace.fault) (by simp) hv)
  rcases h.at_front hlock hplace with hbefore | ⟨hafter, hnone, m, hmarks, hm⟩
  · have hun := FinalizePlace.unmarked_of_before hbefore
    obtain ⟨hall, hnonneg⟩ := h.unmarked hun
    rw [hqueue] at hnonneg
    have hindex : (0 : Int) ≤ index := hnonneg index (by simp)
    have hne : index ≠ -1 := by omega
    refine .of_unmarked hun (fun v => ?_) (fun j hj => ?_) hpopped hfault
    · by_cases hvw : v = w
      · simp [hvw, WorkerPlace.poisoned, hne]
      · simpa [hvw] using hall v
    · exact hnonneg j (List.mem_cons_of_mem _ hj)
  · rw [hqueue] at hmarks
    obtain ⟨rfl, rfl⟩ := List.cons.inj hmarks
    have hcount := numAt_update WorkerPlace.poisoned s.worker w (.popped (-1))
    rw [hclean] at hcount
    simp only [WorkerPlace.poisoned, decide_true, Bool.toNat_true, Bool.toNat_false] at hcount
    refine .of_after hafter (.inr ⟨hnone, m, rfl, ?_⟩) hpopped hfault
    simp only
    omega

theorem Shutdown.queue_ne_nil (hlock : Guarded s)
    (hrounds : s.finalize.before = true → Rounds n s) (h : Shutdown s) {w : Fin k}
    (hplace : s.worker w = .front) : s.pending_host_index_queue ≠ [] := by
  rcases h.at_front hlock hplace with hbefore | ⟨-, -, m, hmarks, -⟩
  · exact (hrounds hbefore).queue_ne_nil (by rw [hplace]; rfl)
  · rw [hmarks]
    exact List.cons_ne_nil _ _

theorem shutdown_step (hlock : Guarded s) (hrounds : s.finalize.before = true → Rounds n s)
    (h : Shutdown s) (hs : Step n s a s') : Shutdown s' := by
  cases hs with
  | main_iteration hplace | main_lock hplace | main_skip hplace | main_warned hplace
  | main_pushed i hplace | main_unlock hplace | main_sent hplace | main_sleep hplace
  | main_slept hplace | main_cancelled =>
      exact h.frame rfl rfl rfl (fun _ => rfl) (fun _ => rfl) fun _ => id
  | main_post i hplace =>
      exact h.frame rfl rfl rfl (by simp [hplace, MainPlace.pushed]) (fun _ => rfl) fun _ => id
  | main_round hplace hempty => exact h.start_round hempty
  | main_push i hplace hi => exact h.push hlock hplace
  | worker_pop w index queue hplace hqueue => exact h.pop hlock hplace hqueue
  | worker_pop_empty w hplace hqueue =>
      exact absurd hqueue (h.queue_ne_nil hlock hrounds hplace)
  | worker_wait w worker_semaphore hplace | worker_lock w hplace | worker_finish w hplace
  | worker_session w index session_semaphore hplace | worker_collected w index hplace
  | worker_session_post w hplace =>
      exact h.move_worker (by rw [hplace]; rfl) (by simp) rfl
  | worker_unlock w index hplace hindex =>
      exact h.move_worker (by simp [hplace, WorkerPlace.poisoned, hindex]) (by simp) rfl
  | finalize_call hplace | finalize_lock hplace | finalize_cancel hplace =>
      obtain ⟨hclean, hnonneg⟩ := h.unmarked (by rw [hplace]; rfl)
      exact .of_unmarked rfl hclean hnonneg h.popped h.no_fault
  | finalize_clear index queue hplace hqueue =>
      have hun : s.finalize.unmarked = true := by rw [hplace]; rfl
      obtain ⟨hclean, hnonneg⟩ := h.unmarked hun
      rw [hqueue] at hnonneg
      exact .of_unmarked hun hclean (fun j hj => hnonneg j (List.mem_cons_of_mem _ hj)) h.popped
        h.no_fault
  | finalize_cleared hplace hqueue =>
      obtain ⟨hclean, _⟩ := h.unmarked (by rw [hplace]; rfl)
      exact .of_marks rfl (Nat.zero_le k) hqueue hclean h.popped h.no_fault
  | finalize_push i hplace hi =>
      obtain ⟨hqueue, -, hclean⟩ := h.marking i (by rw [hplace]; rfl)
      refine .of_marks rfl hi ?_ hclean h.popped h.no_fault
      rw [List.replicate_succ', ← hqueue]
  | finalize_pushed i hplace hi =>
      obtain ⟨hqueue, hle, hclean⟩ := h.marking i (by rw [hplace]; rfl)
      have hall : i = k := by omega
      rw [hall] at hqueue
      exact .of_marks rfl le_rfl hqueue hclean h.popped h.no_fault
  | finalize_post i hplace =>
      obtain ⟨hqueue, hle, hclean⟩ := h.marking (i + 1) (by rw [hplace]; rfl)
      exact .of_marks rfl hle hqueue hclean h.popped h.no_fault
  | finalize_unlock hplace =>
      obtain ⟨hqueue, -, hclean⟩ := h.marking k (by rw [hplace]; rfl)
      have hnone : s.main.pushed = none :=
        pushed_eq_none_of_finalize hlock (by rw [hplace]; rfl)
      refine .of_after rfl (.inr ⟨hnone, k, hqueue, ?_⟩) h.popped h.no_fault
      rw [numAt_eq_zero_iff.mpr hclean]
      rfl
  | finalize_join i hi hplace | finalize_joined i hi hplace =>
      exact .of_after rfl (h.after (by rw [hplace]; rfl)) h.popped h.no_fault
  | other_session_wait | other_session_post =>
      exact h.frame rfl rfl rfl id (fun _ => rfl) fun _ => id

theorem shutdown_reachable {sessions : Nat} (h : Reachable (step n) (State.init k sessions) s) :
    Shutdown s := by
  induction h with
  | start => exact shutdown_init sessions
  | next hreach _ hs ih =>
      exact shutdown_step (guarded_reachable hreach) (rounds_reachable hreach) ih (step_sound hs)

/-! ## After `finalize` has taken the lock -/

/-- Once `finalize` has the lock, what a worker pops is a `-1`, and it holds no host
that it did not hold then. -/
theorem closing_step (hlock : Guarded s) (h : Shutdown s) (hclosing : s.finalize.before = false)
    (hs : Step n s a s') :
    (s'.popped = s.popped ∨ ∃ w, s'.popped = s.popped ++ [(w, -1)]) ∧
      ∀ w (host : Nat), (s'.worker w).holds host = true → (s.worker w).holds host = true := by
  have hmove : ∀ {w : Fin k} {p : WorkerPlace},
      (∀ host : Nat, p.holds host = true → (s.worker w).holds host = true) →
      ∀ v (host : Nat), (Function.update s.worker w p v).holds host = true →
        (s.worker v).holds host = true := by
    intro w p hp v host hv
    exact update_imp (WorkerPlace.holds host · = true) (hp host) hv
  cases hs with
  | worker_pop w index queue hplace hqueue =>
      rcases h.at_front hlock hplace with hbefore | ⟨-, -, m, hmarks, -⟩
      · rw [hclosing] at hbefore
        cases hbefore
      · rw [hqueue] at hmarks
        obtain ⟨rfl, -⟩ := List.cons.inj hmarks
        refine ⟨.inr ⟨w, rfl⟩, hmove fun host hhost => ?_⟩
        simp only [WorkerPlace.holds, decide_eq_true_eq] at hhost
        omega
  | worker_unlock w index hplace | worker_session w index session_semaphore hplace =>
      exact ⟨.inl rfl, hmove (by simp [hplace, WorkerPlace.holds])⟩
  | worker_wait w | worker_lock w | worker_pop_empty w | worker_finish w | worker_collected w
  | worker_session_post w =>
      exact ⟨.inl rfl, hmove (by simp [WorkerPlace.holds])⟩
  | _ => exact ⟨.inl rfl, fun _ _ => id⟩

theorem before_eq_false_of_step (hs : Step n s a s') (h : s.finalize.before = false) :
    s'.finalize.before = false := by
  by_contra hbefore
  rw [before_of_step hs (by simpa using hbefore)] at h
  cases h

theorem closing_reachable {sessions : Nat} {s₁ s₂ : State k}
    (h₁ : Reachable (step n) (State.init k sessions) s₁) (hclosing : s₁.finalize.before = false)
    (h₂ : Reachable (step n) s₁ s₂) :
    s₂.finalize.before = false ∧
      (∃ later, s₂.popped = s₁.popped ++ later ∧ ∀ p ∈ later, p.2 = -1) ∧
      ∀ w (host : Nat), (s₂.worker w).holds host = true → (s₁.worker w).holds host = true := by
  induction h₂ with
  | start => exact ⟨hclosing, ⟨[], by simp, by simp⟩, fun _ _ => id⟩
  | @next s s' a hreach _ hs ih =>
      obtain ⟨hbefore, ⟨later, hpopped, hmarks⟩, hholds⟩ := ih
      have hfrom := h₁.trans hreach
      have hstep := step_sound hs
      obtain ⟨hpop, hkeep⟩ :=
        closing_step (guarded_reachable hfrom) (shutdown_reachable hfrom) hbefore hstep
      refine ⟨before_eq_false_of_step hstep hbefore, ?_, fun w host hw =>
        hholds w host (hkeep w host hw)⟩
      rcases hpop with hsame | ⟨w, hone⟩
      · exact ⟨later, hsame.trans hpopped, hmarks⟩
      · refine ⟨later ++ [(w, -1)], by rw [hone, hpopped, List.append_assoc], fun p hp => ?_⟩
        rcases List.mem_append.mp hp with hold | hnew
        · exact hmarks p hold
        · rw [List.mem_singleton.mp hnew]

structure ShutsDown (n : Nat) (s : State k) : Prop where
  no_fault : ∀ w, s.worker w ≠ .fault
  marks : s.finalize.after = true →
    s.pending_host_index_queue.count (-1) + numAt WorkerPlace.poisoned s.worker = k
  once : ∀ w, s.popped.count (w, -1) = (s.worker w).poisoned.toNat
  pops : s.finalize.before = false → ∀ s', Reachable (step n) s s' →
    ∃ later, s'.popped = s.popped ++ later ∧ ∀ p ∈ later, p.2 = -1
  polls : s.finalize.inside = true → ∀ s', Reachable (step n) s s' → ∀ w (host : Nat),
    s'.worker w = .collecting host →
      s.worker w = .session_wait host ∨ s.worker w = .collecting host

/-- In every reachable state: no worker takes the front of an empty queue; after
`finalize` has released the lock the `-1`s in the queue and the workers that have
popped one make up all workers, and none pops two; from when `finalize` has the lock
only `-1`s are popped, and only a worker that had popped its host before polls it. -/
theorem shutsDown_of_reachable {sessions : Nat}
    (h : Reachable (step n) (State.init k sessions) s) : ShutsDown n s := by
  have hshutdown := shutdown_reachable h
  have hlock := guarded_reachable h
  refine ⟨hshutdown.no_fault, fun hafter => ?_, hshutdown.popped, fun hbefore s' hs' => ?_,
    fun hinside s' hs' w host hw => ?_⟩
  · rcases hshutdown.after hafter with ⟨hall, hnonneg⟩ | ⟨-, m, hqueue, hm⟩
    · have hzero : s.pending_host_index_queue.count (-1) = 0 := by
        rw [List.count_eq_zero]
        intro hmem
        have hneg := hnonneg (-1) hmem
        omega
      omega
    · rw [hqueue, List.count_replicate_self]
      exact hm
  · exact (closing_reachable h hbefore hs').2.1
  · have hbefore : s.finalize.before = false := by
      cases hfin : s.finalize <;> simp_all [FinalizePlace.before, FinalizePlace.inside]
    have hheld := (closing_reachable h hbefore hs').2.2 w host (by simp [hw, WorkerPlace.holds])
    have hin : s.inside .finalize = true := hinside
    have hout : (s.worker w).inside = false :=
      (hlock.outside hin (by simp) : s.inside (.worker w) = false)
    cases hplace : s.worker w <;> simp_all [WorkerPlace.holds, WorkerPlace.inside]

theorem shutsDown_one_host :
    ∃ s : State 1, s.finalize = .done ∧ s.popped = [(0, 0), (0, -1)] ∧ ShutsDown 1 s := by
  obtain ⟨s, hrun, hfinalize, hpopped⟩ : ∃ s : State 1,
      run (step 1) (State.init 1 800)
          (List.replicate 7 .main ++ List.replicate 7 (.worker 0) ++ List.replicate 8 .finalize ++
            List.replicate 4 (.worker 0) ++ List.replicate 2 .finalize) = some s ∧
        s.finalize = .done ∧ s.popped = [(0, 0), (0, -1)] :=
    ⟨_, rfl, rfl, rfl⟩
  exact ⟨s, hfinalize, hpopped, shutsDown_of_reachable (.of_run hrun)⟩

/-- The worker has popped host 0 and waits for a session while `finalize` runs; it
starts the poll after `finalize` has released the lock. -/
theorem poll_starts_after_release :
    ∃ s s' : State 1, Reachable (step 1) (State.init 1 800) s ∧ s.finalize.after = true ∧
      step 1 s (.worker 0) = some s' ∧ s.worker 0 = .session_wait 0 ∧
      s'.worker 0 = .collecting 0 := by
  obtain ⟨s, hrun, hafter, hplace, hstep⟩ : ∃ s : State 1,
      run (step 1) (State.init 1 800)
          (List.replicate 7 .main ++ List.replicate 4 (.worker 0) ++ List.replicate 8 .finalize) =
          some s ∧
        s.finalize.after = true ∧ s.worker 0 = .session_wait 0 ∧
        ∃ s', step 1 s (.worker 0) = some s' ∧ s'.worker 0 = .collecting 0 :=
    ⟨_, rfl, rfl, rfl, _, rfl, rfl⟩
  obtain ⟨s', hnext, hpolls⟩ := hstep
  exact ⟨s, s', .of_run hrun, hafter, hnext, hplace, hpolls⟩

end SnappCollector.CollectionClass
