import SnappCollector.Writer.Proofs.Progress
import SnappCollector.Writer.StatisticsSteps

/-!
# What the statistics thread adds up

The sizes of one pass are read at different times, so their sum is in general not the number
of data that ever were in the queues at once.  It lies between what was put in before the pass
and not taken out by its end, and what was put in by its end and not taken out before.
-/

namespace SnappCollector.Writer

open CLib Machine

variable {n m : Nat}

/-! ## The writer under a pass -/

def State.queued (s : State n) : Nat := ∑ q, s.channel.put q

theorem State.sum_taken (s : State n) : ∑ q, s.channel.taken q = s.popped.length := by
  rw [Channel.sum_taken, State.channel, List.length_map]

def Later (s t : State n) : Prop :=
  ∀ q, s.channel.put q ≤ t.channel.put q ∧ s.channel.taken q ≤ t.channel.taken q

theorem Later.refl (s : State n) : Later s s := fun _ => ⟨le_rfl, le_rfl⟩

theorem Later.trans {s t u : State n} (h : Later s t) (h' : Later t u) : Later s u := fun q =>
  ⟨(h q).1.trans (h' q).1, (h q).2.trans (h' q).2⟩

def QueuesGuarded [NeZero n] (s : State n) : Prop :=
  ∀ q, Guards (s.data_queue q).lock (s.inQueue q)

theorem queuesGuarded_init [NeZero n] : QueuesGuarded (State.init n) := by
  intro q o ho
  cases o <;> simp [State.inQueue, State.init, pushInQueue, WorkerPlace.inQueue] at ho

section Moves

variable {s s' : State n}

theorem State.setQueue_queue_lock (s : State n) {p : Fin n} {queue : RRD_queue n}
    (hqueue : queue.lock = (s.data_queue p).lock) (q : Fin n) :
    ((s.setQueue p queue).data_queue q).lock = (s.data_queue q).lock := by
  by_cases hq : q = p
  · rw [hq, State.setQueue_self, hqueue]
  · rw [State.setQueue_ne s queue hq]

variable [NeZero n]

theorem QueuesGuarded.frame (h : QueuesGuarded s)
    (hlock : ∀ q, (s'.data_queue q).lock = (s.data_queue q).lock)
    (hpush : ∀ q : Fin n, pushInQueue q s'.push = true → pushInQueue q s.push = true)
    (hworker : ∀ w, (s'.worker w).place.inQueue = true → (s.worker w).place.inQueue = true) :
    QueuesGuarded s' := by
  intro q
  rw [hlock]
  refine (h q).frame fun o ho => ?_
  cases o with
  | push => exact hpush q ho
  | worker w =>
      simp only [State.inQueue, Bool.and_eq_true] at ho ⊢
      exact ⟨ho.1, hworker w ho.2⟩

theorem QueuesGuarded.set (h : QueuesGuarded s) {p : Fin n} {queue : RRD_queue n}
    (hdata : s'.data_queue = Function.update s.data_queue p queue)
    (hp : Guards queue.lock (s'.inQueue p))
    (hother : ∀ q, q ≠ p → ∀ o, s'.inQueue q o = true → s.inQueue q o = true) :
    QueuesGuarded s' := by
  intro q
  rw [hdata]
  by_cases hq : q = p
  · subst hq
    rwa [Function.update_self]
  · rw [Function.update_of_ne hq]
    exact (h q).frame (hother q hq)

end Moves

section Writer

variable [NeZero n] {libc : Libc} {s s' : State n} {a : Action n}

theorem later_step (hlocks : Guarded s) (hs : Step libc s a s') : Later s s' := by
  intro q
  rcases channel_step hlocks hs with hsame | hmove
  · rw [hsame]
    exact ⟨le_rfl, le_rfl⟩
  · exact hmove.counts_le q

/-- Every call has put its datum into a queue or has not yet. -/
theorem queued_reachable (h : Reachable (step libc) (State.init n) s) :
    s.queued + (pendingCall s.push).toList.length = s.calls.length := by
  have hcounted : Guarded s ∧ s.channel.Counted := by
    apply h.invariant
    · exact ⟨guarded_init, Channel.counted_empty⟩
    · intro s a s' hinv _ hs
      have hstep := (step_sound hs).2
      refine ⟨guarded_step hinv.1 hstep, ?_⟩
      rcases channel_step hinv.1 hstep with hsame | hmove
      · rw [hsame]
        exact hinv.2
      · exact hinv.2.step hmove
  exact hcounted.2

theorem queuesGuarded_step (h : QueuesGuarded s) (hs : Step libc s a s') : QueuesGuarded s' := by
  cases hs with
  | lock_queue c datum hpush hfree =>
      refine h.set rfl ?_ fun q hq o ho => ?_
      · have hold := h (queue_index n c.filename)
        rw [hfree] at hold
        refine hold.acquire fun o ho hin => ?_
        cases o with
        | push => exact absurd rfl ho
        | worker w => exact hin
      · cases o with
        | push =>
            simp only [State.inQueue, pushInQueue, decide_eq_true_eq] at ho
            exact absurd ho.symm hq
        | worker w => exact ho
  | unlock_queue c hpush =>
      refine h.set rfl ?_ fun q hq o ho => ?_
      · have hin : s.inQueue (queue_index n c.filename) .push = true := by
          simp [State.inQueue, hpush, pushInQueue]
        have hold := h (queue_index n c.filename)
        rw [hold .push hin] at hold
        refine hold.release rfl fun o ho => ?_
        cases o with
        | push => simp [State.inQueue, pushInQueue] at ho
        | worker w => exact ho
      · cases o with
        | push => simp [State.inQueue, pushInQueue] at ho
        | worker w => exact ho
  | worker_lock_queue w hplace hfree =>
      refine h.set rfl ?_ fun q hq o ho => ?_
      · have hold := h w
        rw [hfree] at hold
        refine hold.acquire fun o ho hin => ?_
        cases o with
        | push => exact hin
        | worker v =>
            have hv : v ≠ w := fun heq => ho (heq ▸ rfl)
            simp [State.inQueue, hv] at hin
      · exact (State.inQueue_of_ne (by rfl) (by rfl) hq o).mp ho
  | worker_unlock_queue w entry hplace =>
      refine h.set rfl ?_ fun q hq o ho => ?_
      · have hin : s.inQueue w (.worker w) = true := by
          simp [State.inQueue, hplace, WorkerPlace.inQueue]
        have hold := h w
        rw [hold (.worker w) hin] at hold
        refine hold.release (by simp [State.inQueue, WorkerPlace.inQueue]) fun o ho => ?_
        cases o with
        | push => exact ho
        | worker v =>
            simp only [State.inQueue, Bool.and_eq_true, decide_eq_true_eq] at ho
            obtain ⟨rfl, hv⟩ := ho
            simp [WorkerPlace.inQueue] at hv
      · exact (State.inQueue_of_ne (by rfl) (by rfl) hq o).mp ho
  | call c | fill c datum hpush | leave c hpush =>
      refine h.frame (fun _ => rfl) (fun q hin => ?_) fun _ => id
      simp [pushInQueue] at hin
  | enqueue c datum hpush | post c hpush =>
      refine h.frame (fun q => ?_) (fun q hin => ?_) fun _ => id
      · exact State.setQueue_queue_lock s (by rfl) q
      · simpa [hpush, pushInQueue] using hin
  | abort => exact h
  | wait_retry w => exact h.frame (State.setQueue_queue_lock s (by rfl)) (fun _ => id) fun _ => id
  | wait_taken w semaphore hplace hsem | pop w entry datum_queue hplace hqueue =>
      refine h.frame (State.setQueue_queue_lock s (by rfl)) (fun _ => id) fun v => ?_
      exact State.place_imp (·.inQueue = true) rfl (by simp [hplace, WorkerPlace.inQueue])
  | wait_timeout w hplace | wait_interrupted w hplace | pop_empty w hplace
  | worker_lock w entry hplace | read w entry file_info rrd_template hplace
  | read_outside w entry hplace | worker_unlock w entry file_info rrd_template hplace
  | update w stack entry file_info rrd_template hplace =>
      refine h.frame (fun _ => rfl) (fun _ => id) fun v => ?_
      exact State.place_imp (·.inQueue = true) rfl (by simp [WorkerPlace.inQueue])

theorem queuesGuarded_reachable (h : Reachable (step libc) (State.init n) s) :
    QueuesGuarded s :=
  h.invariant queuesGuarded_init fun _ _ _ hinv _ hs => queuesGuarded_step hinv (step_sound hs).2

theorem queue_free_step (hs : Step libc s a s') {q : Fin n}
    (hfree : (s.data_queue q).lock = none) (hlocks : s.locks a ≠ some q) :
    (s'.data_queue q).lock = none := by
  have hset : ∀ {p : Fin n} {queue : RRD_queue n}, queue.lock = (s.data_queue p).lock ∨
      queue.lock = none → ((s.setQueue p queue).data_queue q).lock = none := by
    intro p queue hqueue
    by_cases hq : q = p
    · subst hq
      rw [State.setQueue_self]
      rcases hqueue with hsame | hnone
      · rw [hsame, hfree]
      · exact hnone
    · rw [State.setQueue_ne s queue hq, hfree]
  cases hs with
  | lock_queue c datum hpush =>
      have hne : q ≠ queue_index n c.filename := by
        rintro rfl
        simp [State.locks, hpush] at hlocks
      rw [State.setQueue_ne s _ hne]
      exact hfree
  | worker_lock_queue w hplace =>
      have hne : q ≠ w := by
        rintro rfl
        simp [State.locks, hplace] at hlocks
      rw [State.setPlace_data_queue, State.setQueue_ne s _ hne]
      exact hfree
  | enqueue | post | wait_taken | wait_retry | pop => exact hset (.inl rfl)
  | unlock_queue | worker_unlock_queue => exact hset (.inr rfl)
  | call | fill | abort | leave | wait_timeout | wait_interrupted | pop_empty | worker_lock
  | read | read_outside | worker_unlock | update => exact hfree

/-- The data of a queue that nobody is in stay as they are. -/
theorem datum_queue_step (hs : Step libc s a s') {q : Fin n}
    (hout : ∀ o, s.inQueue q o = false) :
    (s'.data_queue q).datum_queue = (s.data_queue q).datum_queue := by
  cases hs with
  | enqueue c datum hpush =>
      have hne : q ≠ queue_index n c.filename := by
        rintro rfl
        have hpushing := hout .push
        simp [State.inQueue, hpush, pushInQueue] at hpushing
      exact congrArg RRD_queue.datum_queue (State.setQueue_ne s _ hne)
  | pop w entry datum_queue hplace hqueue =>
      have hne : q ≠ w := by
        rintro rfl
        have htaking := hout (.worker q)
        simp [State.inQueue, hplace, WorkerPlace.inQueue] at htaking
      exact congrArg RRD_queue.datum_queue (State.setQueue_ne s _ hne)
  | lock_queue | post | unlock_queue | wait_taken | wait_retry | worker_lock_queue
  | worker_unlock_queue => exact State.setQueue_datum_queue s (by rfl) q
  | call | fill | abort | leave | wait_timeout | wait_interrupted | pop_empty | worker_lock
  | read | read_outside | worker_unlock | update => rfl

end Writer

/-! ## A pass -/

/-- The sizes of some first queues, read between the states `began` and `later`. -/
def SizesBetween (sizes : List Nat) (began later : State n) : Prop :=
  ∀ (q : Fin n) (size : Nat), sizes[q.val]? = some size →
    size + began.channel.taken q ≤ later.channel.put q ∧
      began.channel.put q ≤ size + later.channel.taken q

theorem SizesBetween.later {sizes : List Nat} {began t u : State n}
    (h : SizesBetween sizes began t) (hlater : Later t u) : SizesBetween sizes began u := by
  intro q size hsize
  obtain ⟨hput, htaken⟩ := h q size hsize
  obtain ⟨hmore, hmore'⟩ := hlater q
  omega

theorem SizesBetween.read {sizes : List Nat} {began now : State n}
    (h : SizesBetween sizes began now) (hbegan : Later began now) (hlength : sizes.length < n) :
    SizesBetween (sizes ++ [(now.data_queue ⟨sizes.length, hlength⟩).datum_queue.length])
      began now := by
  intro q size hsize
  by_cases hq : q.val < sizes.length
  · rw [List.getElem?_append_left hq] at hsize
    exact h q size hsize
  · rw [List.getElem?_append_right (Nat.le_of_not_lt hq), List.getElem?_singleton] at hsize
    split at hsize
    next hlast =>
      obtain rfl := Option.some.inj hsize
      have heq : (⟨sizes.length, hlength⟩ : Fin n) = q := Fin.ext (by simp only; omega)
      obtain ⟨hput, htaken⟩ := hbegan q
      rw [heq]
      simp only [Channel.put, State.channel, List.length_map] at hput htaken ⊢
      omega
    next => cases hsize

theorem SizesBetween.sum {sizes : List Nat} {began ended : State n}
    (h : SizesBetween sizes began ended) (hlength : sizes.length = n) :
    sizes.sum + began.popped.length ≤ ended.queued ∧
      began.queued ≤ sizes.sum + ended.popped.length := by
  have hsum : sizes.sum = ∑ q : Fin n, sizes.getD q 0 := by
    subst hlength
    simp
  have hq : ∀ q : Fin n, sizes.getD q 0 + began.channel.taken q ≤ ended.channel.put q ∧
      began.channel.put q ≤ sizes.getD q 0 + ended.channel.taken q := by
    intro q
    have hget : sizes[q.val]? = some (sizes.getD q 0) := by
      have hlt : q.val < sizes.length := hlength ▸ q.isLt
      rw [List.getD_eq_getElem?_getD, List.getElem?_eq_getElem hlt, Option.getD_some]
    exact h q _ hget
  rw [hsum, ← State.sum_taken began, ← State.sum_taken ended, State.queued, State.queued,
    ← Finset.sum_add_distrib, ← Finset.sum_add_distrib]
  exact ⟨Finset.sum_le_sum fun q _ => (hq q).1, Finset.sum_le_sum fun q _ => (hq q).2⟩

structure Complete (pass : Sample n) (now : State n) : Prop where
  length : pass.sizes.length = n
  between : SizesBetween pass.sizes pass.began pass.ended
  later : Later pass.ended now

theorem Complete.trans {pass : Sample n} {t u : State n} (h : Complete pass t)
    (hlater : Later t u) : Complete pass u :=
  ⟨h.length, h.between, h.later.trans hlater⟩

structure Passing (s : StatsState n m) : Prop where
  later : Later s.pass.began s.writer
  read : SizesBetween s.pass.sizes s.pass.began s.writer
  queue : ∀ i sum, s.stats = .queue i sum → s.pass.sizes.length = i ∧ i ≤ n
  size : ∀ i sum, s.stats = .size i sum → s.pass.sizes.length = i ∧ i < n
  queue_unlock : ∀ i sum, s.stats = .queue_unlock i sum → s.pass.sizes.length = i + 1 ∧ i < n
  ended : ∀ sum done, s.stats = .status_lock sum ∨ s.stats = .assign done sum →
    Complete s.pass s.writer
  free : ∀ i (hi : i < n), s.stats.holds = some i → (s.writer.data_queue ⟨i, hi⟩).lock = none
  samples : ∀ sample ∈ s.samples, Complete sample s.writer

theorem passing_init : Passing (StatsState.init n m) where
  later := .refl _
  read q size h := by simp [StatsState.init] at h
  queue i sum h := by cases h
  size i sum h := by cases h
  queue_unlock i sum h := by cases h
  ended sum done h := by simp [StatsState.init] at h
  free i hi h := by cases h
  samples sample h := by simp [StatsState.init] at h

section Pass

variable {s s' : StatsState n m}

theorem Passing.frame (h : Passing s) (hwriter : s'.writer = s.writer) (hstats : s'.stats = s.stats)
    (hpass : s'.pass = s.pass) (hsamples : s'.samples = s.samples) : Passing s' := by
  constructor
  · rw [hpass, hwriter]
    exact h.later
  · rw [hpass, hwriter]
    exact h.read
  · rw [hpass, hstats]
    exact h.queue
  · rw [hpass, hstats]
    exact h.size
  · rw [hpass, hstats]
    exact h.queue_unlock
  · rw [hpass, hstats, hwriter]
    exact h.ended
  · rw [hstats, hwriter]
    exact h.free
  · rw [hsamples, hwriter]
    exact h.samples

variable [NeZero n] {libc : Libc} {a : StatsAction n m}

theorem Passing.writer_step (h : Passing s) (hreach : Reachable (step libc) (State.init n) s.writer)
    {a : Action n} {writer : State n}
    (hfree : ∀ q, s.writer.locks a = some q → s.stats.holds ≠ some q.val)
    (hstep : step libc s.writer a = some writer) : Passing { s with writer } := by
  have hsound := (step_sound hstep).2
  have hlater : Later s.writer writer := later_step (guarded_reachable hreach) hsound
  refine ⟨h.later.trans hlater, h.read.later hlater, h.queue, h.size, h.queue_unlock,
    fun sum done hended => (h.ended sum done hended).trans hlater, fun i hi hholds => ?_,
    fun sample hsample => (h.samples sample hsample).trans hlater⟩
  exact queue_free_step hsound (h.free i hi hholds) fun hlocks => hfree _ hlocks hholds

theorem passing_step (h : Passing s) (hreach : Reachable (step libc) (State.init n) s.writer)
    (hs : StatsStep libc s a s') : Passing s' := by
  cases hs with
  | writer a writer hfree hstep => exact h.writer_step hreach hfree hstep
  | begin hplace =>
      refine ⟨.refl _, ?_, ?_, ?_, ?_, ?_, ?_, h.samples⟩
      · intro q size hsize
        simp at hsize
      · intro i sum hi
        cases hi
        exact ⟨rfl, Nat.zero_le n⟩
      all_goals simp [StatsPlace.holds]
  | lock i hi sum hplace hfree =>
      refine ⟨h.later, h.read, ?_, ?_, ?_, ?_, ?_, h.samples⟩
      · simp
      · intro k sum' hk
        cases hk
        exact ⟨(h.queue i sum hplace).1, hi⟩
      · simp
      · simp
      · intro k hk hholds
        cases hholds
        exact hfree
  | loop_end i hi sum hplace =>
      obtain ⟨hlength, hle⟩ := h.queue i sum hplace
      have hn : s.pass.sizes.length = n := by omega
      refine ⟨h.later, h.read, ?_, ?_, ?_, fun _ _ _ => ⟨hn, h.read, .refl _⟩, ?_, h.samples⟩
      all_goals simp [StatsPlace.holds]
  | size i hi sum hplace =>
      obtain ⟨hlength, -⟩ := h.size i sum hplace
      subst hlength
      refine ⟨h.later, h.read.read h.later hi, ?_, ?_, ?_, ?_, ?_, h.samples⟩
      · simp
      · simp
      · intro k sum' hk
        cases hk
        exact ⟨by simp, hi⟩
      · simp
      · intro k hk hholds
        cases hholds
        exact h.free _ hk (by rw [hplace]; rfl)
  | unlock i sum hplace =>
      obtain ⟨hlength, hi⟩ := h.queue_unlock i sum hplace
      refine ⟨h.later, h.read, ?_, ?_, ?_, ?_, ?_, h.samples⟩
      · intro k sum' hk
        cases hk
        exact ⟨hlength, hi⟩
      all_goals simp [StatsPlace.holds]
  | status_lock sum hplace hfree =>
      have hended := h.ended sum 0 (.inl hplace)
      refine ⟨h.later, h.read, ?_, ?_, ?_, fun _ _ _ => hended, ?_, h.samples⟩
      all_goals simp [StatsPlace.holds]
  | assign done sum f hplace hassign =>
      have hended := h.ended sum done (.inr hplace)
      refine ⟨h.later, h.read, ?_, ?_, ?_, fun _ _ _ => hended, ?_, h.samples⟩
      all_goals simp [StatsPlace.holds]
  | assigned done sum hplace hassign =>
      have hended := h.ended sum done (.inr hplace)
      have hsamples : ∀ sample ∈ s.samples ++ [s.pass], Complete sample s.writer := by
        intro sample hsample
        rcases List.mem_append.mp hsample with hold | hnew
        · exact h.samples sample hold
        · rw [List.mem_singleton.mp hnew]
          exact hended
      refine ⟨h.later, h.read, ?_, ?_, ?_, ?_, ?_, hsamples⟩
      all_goals simp [StatsPlace.holds]
  | status_unlock hplace =>
      refine ⟨h.later, h.read, ?_, ?_, ?_, ?_, ?_, h.samples⟩
      all_goals simp [StatsPlace.holds]
  | read_call | read_lock | copy_1min | copy_5min | read_unlock => exact h.frame rfl rfl rfl rfl

theorem writer_step_reachable (hreach : Reachable (step libc) (State.init n) s.writer)
    (hs : StatsStep libc s a s') : Reachable (step libc) (State.init n) s'.writer := by
  cases hs with
  | writer a writer hfree hstep => exact hreach.next trivial hstep
  | _ => exact hreach

theorem passing_reachable (h : Reachable (stepWithStats libc) (StatsState.init n m) s) :
    Reachable (step libc) (State.init n) s.writer ∧ Passing s := by
  apply h.invariant
  · exact ⟨.start, passing_init⟩
  · intro s a s' hinv _ hs
    have hsound := stepWithStats_sound hs
    exact ⟨writer_step_reachable hinv.1 hsound, passing_step hinv.2 hinv.1 hsound⟩

theorem outside_of_holds (h : Reachable (stepWithStats libc) (StatsState.init n m) s) {q : Fin n}
    (hholds : s.stats.holds = some q.val) (o : Owner n) : s.writer.inQueue q o = false := by
  obtain ⟨hwriter, hpassing⟩ := passing_reachable h
  have hguards := queuesGuarded_reachable hwriter q
  rw [hpassing.free q q.isLt hholds] at hguards
  exact hguards.outside_of_free o

/-- While the statistics thread has the lock of a queue, no step changes its data. -/
theorem datum_queue_kept (h : Reachable (stepWithStats libc) (StatsState.init n m) s) {q : Fin n}
    (hholds : s.stats.holds = some q.val) (hs : StatsStep libc s a s') :
    (s'.writer.data_queue q).datum_queue = (s.writer.data_queue q).datum_queue := by
  cases hs with
  | writer a writer hfree hstep =>
      exact datum_queue_step (step_sound hstep).2 (outside_of_holds h hholds)
  | _ => rfl

structure Sampled (libc : Libc) (s : StatsState n m) : Prop where
  /-- nobody else is in the queue whose size is read -/
  alone : ∀ (q : Fin n) (o : Owner n), s.stats.holds = some q.val → s.writer.inQueue q o = false
  /-- and no step of any thread changes its data -/
  kept : ∀ (q : Fin n) (a : StatsAction n m) (s' : StatsState n m), s.stats.holds = some q.val →
    stepWithStats libc s a = some s' →
      (s'.writer.data_queue q).datum_queue = (s.writer.data_queue q).datum_queue
  all : ∀ sample ∈ s.samples, sample.sizes.length = n
  /-- what no worker had taken at the start was put in by the end -/
  sum_le : ∀ sample ∈ s.samples,
    sample.sizes.sum + sample.began.popped.length ≤ sample.ended.queued
  /-- what was put in before the start is there or was taken by the end -/
  le_sum : ∀ sample ∈ s.samples,
    sample.began.queued ≤ sample.sizes.sum + sample.ended.popped.length

/-- Whatever the calls and the workers do during a pass, no queue changes while its size is
read, and the sum of the sizes is off by no more than what moved during the pass. -/
theorem sampled_of_reachable (h : Reachable (stepWithStats libc) (StatsState.init n m) s) :
    Sampled libc s := by
  obtain ⟨-, hpassing⟩ := passing_reachable h
  constructor
  · exact fun q o hholds => outside_of_holds h hholds o
  · exact fun q a s' hholds hstep => datum_queue_kept h hholds (stepWithStats_sound hstep)
  · intro sample hsample
    exact (hpassing.samples sample hsample).length
  · intro sample hsample
    obtain ⟨hlength, hbetween, -⟩ := hpassing.samples sample hsample
    exact (hbetween.sum hlength).1
  · intro sample hsample
    obtain ⟨hlength, hbetween, -⟩ := hpassing.samples sample hsample
    exact (hbetween.sum hlength).2

end Pass

/-- A call that comes in during the pass is counted by it. -/
theorem sampled_call_in_pass :
    ∃ s : StatsState 1 0, s.samples.map (·.sizes) = [[1]] ∧
      s.samples.map (·.began.calls) = [[]] ∧ Sampled decimalLibc s := by
  obtain ⟨s, hrun, hsizes, hcalls⟩ : ∃ s : StatsState 1 0,
      run (stepWithStats decimalLibc) (StatsState.init 1 0)
        (.stats :: .writer (.call (numberedCall 0)) ::
          (List.replicate 5 (.writer .push) ++ List.replicate 12 .stats)) = some s ∧
        s.samples.map (·.sizes) = [[1]] ∧ s.samples.map (·.began.calls) = [[]] :=
    ⟨_, rfl, rfl, rfl⟩
  exact ⟨s, hsizes, hcalls, sampled_of_reachable (Reachable.of_run hrun)⟩

end SnappCollector.Writer
