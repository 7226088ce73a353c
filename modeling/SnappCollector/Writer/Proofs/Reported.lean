import SnappCollector.Writer.Proofs.LoadBounds
import SnappCollector.Writer.Proofs.Samples

/-!
# What the control workers report

The averages are assigned in several steps, and a reader copies them one after the other.
Under `status_lock` a reader nevertheless gets the averages that some whole number of passes
leaves, both of the same number, and never of fewer passes than an earlier report.
-/

namespace SnappCollector.Writer

open CLib Machine

variable {n m : Nat}

/-! ## The status after some passes -/

def status_of (samples : List (Sample n)) : Writer_status :=
  samples.foldl (fun st sample => calculate_new_stats sample.sizes st) .zeroed

def sizes_of (samples : List (Sample n)) (k : Nat) : List Nat :=
  (samples[k]?.map (·.sizes)).getD []

theorem avg_queue_len_concat (queue_sizes : List Nat) (size : Nat) :
    avg_queue_len (queue_sizes ++ [size]) = avg_queue_len queue_sizes + UInt64.ofNat size := by
  simp [avg_queue_len]

theorem status_of_concat (samples : List (Sample n)) (sample : Sample n) :
    status_of (samples ++ [sample]) = calculate_new_stats sample.sizes (status_of samples) := by
  simp [status_of]

theorem status_of_take {samples : List (Sample n)} {k : Nat} (hk : k ≤ samples.length) :
    status_of (samples.take k) = status_after (sizes_of samples) .zeroed k := by
  induction k with
  | zero => rfl
  | succ k ih =>
      have hget : samples[k]? = some samples[k] := List.getElem?_eq_getElem hk
      rw [List.take_add_one, hget, Option.toList_some, status_of_concat, ih (Nat.le_of_lt hk),
        status_after, sizes_of, hget]
      rfl

/-- No average exceeds the largest sum that a pass found. -/
theorem status_of_take_le {samples : List (Sample n)} {B k : Nat} (hB : B * 2048 < 2 ^ 64)
    (hsum : ∀ sample ∈ samples, sample.sizes.sum ≤ B) (hk : k ≤ samples.length) :
    (status_of (samples.take k)).avg_queue_len_1min.toNat ≤ B ∧
      (status_of (samples.take k)).avg_queue_len_5min.toNat ≤ B := by
  have hle : ∀ i, (sizes_of samples i).sum ≤ B := by
    intro i
    rw [sizes_of]
    cases hi : samples[i]? with
    | none => exact Nat.zero_le B
    | some sample => exact hsum sample (List.mem_of_getElem? hi)
  rw [status_of_take hk]
  exact ⟨(fromZero_1min hB hle).le_bound k, (fromZero_5min hB hle).le_bound k⟩

/-! ## Copies under the lock -/

def StatsPlace.avg_queue_len : StatsPlace → Option UInt64
  | .queue _ sum | .size _ sum | .queue_unlock _ sum | .status_lock sum | .assign _ sum => some sum
  | .sleeping | .status_unlock => none

/-- The assignments made for the pass that is not counted yet. -/
def StatsPlace.done : StatsPlace → Nat
  | .assign done _ => done
  | _ => 0

def StatsPlace.inStatus : StatsPlace → Bool
  | .assign .. | .status_unlock => true
  | _ => false

def ReaderPlace.inStatus : ReaderPlace → Bool
  | .copy_1min | .copy_5min _ | .status_unlock _ => true
  | .idle | .status_lock => false

theorem StatsPlace.done_of_outside {place : StatsPlace} (h : place.inStatus = false) :
    place.done = 0 := by
  cases place with
  | assign done sum => cases h
  | _ => rfl

def StatsState.inStatus (s : StatsState n m) : StatusOwner m → Bool
  | .stats => s.stats.inStatus
  | .reader j => (s.reader j).inStatus

theorem StatsState.inStatus_cases (s : StatsState n m) {s' : StatsState n m} {j : Fin m}
    {place : ReaderPlace} {o : StatusOwner m} (ho : s'.inStatus o = true)
    (hreader : s'.reader = Function.update s.reader j place) (hstats : s'.stats = s.stats) :
    o = .reader j ∧ place.inStatus = true ∨ s.inStatus o = true := by
  cases o with
  | stats =>
      rw [StatsState.inStatus, hstats] at ho
      exact .inr ho
  | reader i =>
      rw [StatsState.inStatus, hreader] at ho
      rcases update_cases s.reader j place i with ⟨rfl, hnew⟩ | hold
      · rw [hnew] at ho
        exact .inl ⟨rfl, ho⟩
      · rw [hold] at ho
        exact .inr ho

/-- The status that the assignments made so far leave. -/
def StatsState.assigned (s : StatsState n m) : Writer_status :=
  ((load_assignments (avg_queue_len s.pass.sizes)).take s.stats.done).foldl (fun st f => f st)
    (status_of s.samples)

/-- Each report is the status after some first passes, and they follow one another. -/
def InOrder (samples : List (Sample n)) (reported : List Writer_status) : Prop :=
  ∃ passes : List Nat, passes.Pairwise (· ≤ ·) ∧ (∀ k ∈ passes, k ≤ samples.length) ∧
    reported = passes.map fun k => status_of (samples.take k)

section InOrder

variable {samples : List (Sample n)} {reported : List Writer_status}

theorem InOrder.pass (h : InOrder samples reported) (sample : Sample n) :
    InOrder (samples ++ [sample]) reported := by
  obtain ⟨passes, horder, hle, hreported⟩ := h
  refine ⟨passes, horder, fun k hk => ?_, ?_⟩
  · have hk' := hle k hk
    rw [List.length_append]
    omega
  · rw [hreported]
    apply List.map_congr_left
    intro k hk
    rw [List.take_append_of_le_length (hle k hk)]

theorem InOrder.report (h : InOrder samples reported) :
    InOrder samples (reported ++ [status_of samples]) := by
  obtain ⟨passes, horder, hle, hreported⟩ := h
  refine ⟨passes ++ [samples.length], ?_, ?_, ?_⟩
  · rw [List.pairwise_append]
    refine ⟨horder, List.pairwise_singleton .., fun k hk k' hk' => ?_⟩
    rw [List.mem_singleton.mp hk']
    exact hle k hk
  · intro k hk
    rcases List.mem_append.mp hk with hold | hnew
    · exact hle k hold
    · exact (List.mem_singleton.mp hnew).le
  · rw [hreported, List.map_append, List.map_singleton, List.take_length]

end InOrder

structure StatusInv (s : StatsState n m) : Prop where
  guards : Guards s.status_lock s.inStatus
  sum : ∀ sum, s.stats.avg_queue_len = some sum → sum = avg_queue_len s.pass.sizes
  assigned : s.local_status = s.assigned
  copied : ∀ j avg_queue_len_1min, s.reader j = .copy_5min avg_queue_len_1min →
    avg_queue_len_1min = (status_of s.samples).avg_queue_len_1min
  copy : ∀ j writer_status, s.reader j = .status_unlock writer_status →
    writer_status = status_of s.samples
  reports : InOrder s.samples s.reported

theorem statusInv_init : StatusInv (StatsState.init n m) where
  guards o ho := by
    cases o with
    | stats => cases ho
    | reader j => cases ho
  sum sum h := by cases h
  assigned := rfl
  copied j avg h := by cases h
  copy j writer_status h := by cases h
  reports := ⟨[], .nil, by simp, rfl⟩

namespace StatusInv

variable {s s' : StatsState n m}

theorem local_status (h : StatusInv s) (hdone : s.stats.done = 0) :
    s.local_status = status_of s.samples := by
  rw [h.assigned, StatsState.assigned, hdone, List.take_zero, List.foldl_nil]

theorem done_eq_zero (h : StatusInv s) {j : Fin m} (hj : (s.reader j).inStatus = true) :
    s.stats.done = 0 := by
  have hin : s.inStatus (.reader j) = true := hj
  have hout : s.inStatus .stats = false := h.guards.outside hin (by simp)
  exact StatsPlace.done_of_outside hout

theorem reader_outside (h : StatusInv s) (hstats : s.stats.inStatus = true) (j : Fin m) :
    (s.reader j).inStatus = false := by
  have hin : s.inStatus .stats = true := hstats
  have hout : s.inStatus (.reader j) = false := h.guards.outside hin (by simp)
  exact hout

theorem stats_move (h : StatusInv s) (hreader : s'.reader = s.reader)
    (hsamples : s'.samples = s.samples) (hreported : s'.reported = s.reported)
    (hguards : Guards s'.status_lock s'.inStatus)
    (hsum : ∀ sum, s'.stats.avg_queue_len = some sum → sum = avg_queue_len s'.pass.sizes)
    (hassigned : s'.local_status = s'.assigned) : StatusInv s' where
  guards := hguards
  sum := hsum
  assigned := hassigned
  copied := by
    rw [hreader, hsamples]
    exact h.copied
  copy := by
    rw [hreader, hsamples]
    exact h.copy
  reports := by
    rw [hsamples, hreported]
    exact h.reports

theorem pass_move (h : StatusInv s) (hreader : s'.reader = s.reader)
    (hsamples : s'.samples = s.samples) (hreported : s'.reported = s.reported)
    (hlock : s'.status_lock = s.status_lock) (hlocal : s'.local_status = s.local_status)
    (hbefore : s.stats.inStatus = false) (hafter : s'.stats.inStatus = false)
    (hsum : ∀ sum, s'.stats.avg_queue_len = some sum → sum = avg_queue_len s'.pass.sizes) :
    StatusInv s' := by
  refine h.stats_move hreader hsamples hreported ?_ hsum ?_
  · rw [hlock]
    refine h.guards.frame fun o ho => ?_
    cases o with
    | stats =>
        rw [StatsState.inStatus, hafter] at ho
        cases ho
    | reader j => rwa [StatsState.inStatus, hreader] at ho
  · rw [hlocal, h.local_status (StatsPlace.done_of_outside hbefore), StatsState.assigned,
      StatsPlace.done_of_outside hafter, List.take_zero, List.foldl_nil, hsamples]

theorem reader_move (h : StatusInv s) {j : Fin m} {place : ReaderPlace}
    (hreader : s'.reader = Function.update s.reader j place) (hstats : s'.stats = s.stats)
    (hpass : s'.pass = s.pass) (hlocal : s'.local_status = s.local_status)
    (hsamples : s'.samples = s.samples) (hguards : Guards s'.status_lock s'.inStatus)
    (hcopied : ∀ avg_queue_len_1min, place = .copy_5min avg_queue_len_1min →
      avg_queue_len_1min = (status_of s.samples).avg_queue_len_1min)
    (hcopy : ∀ writer_status, place = .status_unlock writer_status →
      writer_status = status_of s.samples)
    (hreports : InOrder s.samples s'.reported) : StatusInv s' where
  guards := hguards
  sum := by
    rw [hstats, hpass]
    exact h.sum
  assigned := by
    rw [hlocal, StatsState.assigned, hpass, hstats, hsamples]
    exact h.assigned
  copied i avg hi := by
    rw [hsamples]
    rw [hreader] at hi
    rcases update_cases s.reader j place i with ⟨rfl, hnew⟩ | hold
    · exact hcopied avg (hnew ▸ hi)
    · exact h.copied i avg (hold ▸ hi)
  copy i writer_status hi := by
    rw [hsamples]
    rw [hreader] at hi
    rcases update_cases s.reader j place i with ⟨rfl, hnew⟩ | hold
    · exact hcopy writer_status (hnew ▸ hi)
    · exact h.copy i writer_status (hold ▸ hi)
  reports := by
    rw [hsamples]
    exact hreports

end StatusInv

section Step

variable [NeZero n] {libc : Libc} {s s' : StatsState n m} {a : StatsAction n m}

theorem statusInv_step (h : StatusInv s) (hs : StatsStep libc s a s') : StatusInv s' := by
  cases hs with
  | writer a writer hfree hstep => exact ⟨h.guards, h.sum, h.assigned, h.copied, h.copy, h.reports⟩
  | begin hplace =>
      refine h.pass_move rfl rfl rfl rfl rfl (by rw [hplace]; rfl) rfl fun sum hsum => ?_
      cases hsum
      rfl
  | lock i hi sum hplace hfree =>
      refine h.pass_move rfl rfl rfl rfl rfl (by rw [hplace]; rfl) rfl fun sum' hsum => ?_
      cases hsum
      exact h.sum sum (by rw [hplace]; rfl)
  | loop_end i hi sum hplace =>
      refine h.pass_move rfl rfl rfl rfl rfl (by rw [hplace]; rfl) rfl fun sum' hsum => ?_
      cases hsum
      exact h.sum sum (by rw [hplace]; rfl)
  | size i hi sum hplace =>
      refine h.pass_move rfl rfl rfl rfl rfl (by rw [hplace]; rfl) rfl fun sum' hsum => ?_
      cases hsum
      rw [h.sum sum (by rw [hplace]; rfl), avg_queue_len_concat]
  | unlock i sum hplace =>
      refine h.pass_move rfl rfl rfl rfl rfl (by rw [hplace]; rfl) rfl fun sum' hsum => ?_
      cases hsum
      exact h.sum sum (by rw [hplace]; rfl)
  | status_lock sum hplace hfree =>
      have hguards := h.guards
      rw [hfree] at hguards
      refine h.stats_move rfl rfl rfl (hguards.acquire fun o ho hin => ?_) (fun sum' hsum => ?_) ?_
      · cases o with
        | stats => exact absurd rfl ho
        | reader j => exact hin
      · cases hsum
        exact h.sum sum (by rw [hplace]; rfl)
      · exact h.local_status (by rw [hplace]; rfl)
  | assign done sum f hplace hassign =>
      have hlen := h.sum sum (by rw [hplace]; rfl)
      refine h.stats_move rfl rfl rfl (h.guards.frame fun o ho => ?_) (fun sum' hsum => ?_) ?_
      · cases o with
        | stats => simp [StatsState.inStatus, hplace, StatsPlace.inStatus]
        | reader j => exact ho
      · cases hsum
        exact hlen
      · have hlocal := h.assigned
        rw [StatsState.assigned, hplace, ← hlen, StatsPlace.done] at hlocal
        simp [StatsState.assigned, StatsPlace.done, ← hlen, List.take_add_one, hassign, hlocal]
  | assigned done sum hplace hassign =>
      have hin : s.stats.inStatus = true := by rw [hplace]; rfl
      have hlen := h.sum sum (by rw [hplace]; rfl)
      have hall : s.local_status = status_of (s.samples ++ [s.pass]) := by
        have hdone : (load_assignments sum).length ≤ done := List.getElem?_eq_none_iff.mp hassign
        rw [h.assigned, StatsState.assigned, hplace, ← hlen, StatsPlace.done,
          List.take_of_length_le hdone, hlen, foldl_load_assignments, status_of_concat]
      refine ⟨h.guards.frame fun o ho => ?_, ?_, ?_, fun j avg hj => ?_, fun j st hj => ?_,
        h.reports.pass _⟩
      · cases o with
        | stats => exact hin
        | reader j => exact ho
      · intro sum' hsum
        cases hsum
      · exact hall
      · have hout := h.reader_outside hin j
        rw [hj] at hout
        cases hout
      · have hout := h.reader_outside hin j
        rw [hj] at hout
        cases hout
  | status_unlock hplace =>
      have hguards := h.guards
      rw [hguards .stats (by simp [StatsState.inStatus, hplace, StatsPlace.inStatus])] at hguards
      refine h.stats_move rfl rfl rfl (hguards.release rfl fun o ho => ?_) (fun sum' hsum => ?_) ?_
      · cases o with
        | stats => cases ho
        | reader j => exact ho
      · cases hsum
      · exact h.local_status (by rw [hplace]; rfl)
  | read_call j hplace =>
      refine h.reader_move rfl rfl rfl rfl rfl (h.guards.frame fun o ho => ?_) ?_ ?_ h.reports
      · rcases s.inStatus_cases ho rfl rfl with ⟨-, hin⟩ | hin
        · cases hin
        · exact hin
      · simp
      · simp
  | read_lock j hplace hfree =>
      have hguards := h.guards
      rw [hfree] at hguards
      refine h.reader_move rfl rfl rfl rfl rfl (hguards.acquire fun o ho hin => ?_) ?_ ?_ h.reports
      · rcases s.inStatus_cases hin rfl rfl with ⟨heq, -⟩ | hin'
        · exact absurd heq ho
        · exact hin'
      · simp
      · simp
  | copy_1min j hplace =>
      have hin : s.inStatus (.reader j) = true := by
        simp [StatsState.inStatus, hplace, ReaderPlace.inStatus]
      refine h.reader_move rfl rfl rfl rfl rfl (h.guards.frame fun o ho => ?_) (fun avg heq => ?_)
        (by simp) h.reports
      · rcases s.inStatus_cases ho rfl rfl with ⟨rfl, -⟩ | hin'
        · exact hin
        · exact hin'
      · cases heq
        rw [h.local_status (h.done_eq_zero hin)]
  | copy_5min j avg hplace =>
      have hin : s.inStatus (.reader j) = true := by
        simp [StatsState.inStatus, hplace, ReaderPlace.inStatus]
      refine h.reader_move rfl rfl rfl rfl rfl (h.guards.frame fun o ho => ?_) (by simp)
        (fun writer_status heq => ?_) h.reports
      · rcases s.inStatus_cases ho rfl rfl with ⟨rfl, -⟩ | hin'
        · exact hin
        · exact hin'
      · cases heq
        rw [h.copied j avg hplace, h.local_status (h.done_eq_zero hin)]
  | read_unlock j writer_status hplace =>
      have hguards := h.guards
      have hin : s.inStatus (.reader j) = true := by
        simp [StatsState.inStatus, hplace, ReaderPlace.inStatus]
      rw [hguards _ hin] at hguards
      refine h.reader_move rfl rfl rfl rfl rfl (hguards.release ?_ fun o ho => ?_) (by simp) (by simp)
        ?_
      · simp [StatsState.inStatus, ReaderPlace.inStatus]
      · rcases s.inStatus_cases ho rfl rfl with ⟨-, hin'⟩ | hin'
        · cases hin'
        · exact hin'
      · rw [h.copy j writer_status hplace]
        exact h.reports.report

theorem statusInv_reachable (h : Reachable (stepWithStats libc) (StatsState.init n m) s) :
    StatusInv s :=
  h.invariant statusInv_init fun _ _ _ hinv _ hs => statusInv_step hinv (stepWithStats_sound hs)

/-- No pass finds more data than there were calls. -/
theorem sum_le_calls (h : Reachable (stepWithStats libc) (StatsState.init n m) s) :
    ∀ sample ∈ s.samples, sample.sizes.sum ≤ s.writer.calls.length := by
  intro sample hsample
  obtain ⟨hwriter, hpassing⟩ := passing_reachable h
  obtain ⟨hlength, hbetween, hlater⟩ := hpassing.samples sample hsample
  have hsum := ((hbetween.later hlater).sum hlength).1
  have hcalls := queued_reachable hwriter
  omega

structure Reported (s : StatsState n m) : Prop where
  inOrder : InOrder s.samples s.reported
  /-- as long as the calls are not too many for the arithmetic -/
  le_calls : s.writer.calls.length * 2048 < 2 ^ 64 → ∀ writer_status ∈ s.reported,
    writer_status.avg_queue_len_1min.toNat ≤ s.writer.calls.length ∧
      writer_status.avg_queue_len_5min.toNat ≤ s.writer.calls.length

/-- In every state that calls, workers, passes and any number of readers reach, the reports are
the averages after whole passes, later reports after no fewer passes, and none of them exceeds
the number of calls. -/
theorem reported_of_reachable (h : Reachable (stepWithStats libc) (StatsState.init n m) s) :
    Reported s := by
  have hreports := (statusInv_reachable h).reports
  refine ⟨hreports, fun hfits writer_status hmem => ?_⟩
  obtain ⟨passes, -, hle, hreported⟩ := hreports
  rw [hreported] at hmem
  obtain ⟨k, hk, rfl⟩ := List.mem_map.mp hmem
  exact status_of_take_le hfits (sum_le_calls h) (hle k hk)

end Step

/-- A report between two passes, and one that waits for the end of the second. -/
theorem reported_two_passes :
    ∃ s : StatsState 1 2, s.samples.length = 2 ∧ s.reported.length = 2 ∧ Reported s := by
  obtain ⟨s, hrun, hsamples, hreported⟩ : ∃ s : StatsState 1 2,
      run (stepWithStats decimalLibc) (StatsState.init 1 2)
        (.reader 0 :: .reader 1 :: (List.replicate 14 .stats ++ List.replicate 4 (.reader 1) ++
          List.replicate 14 .stats ++ List.replicate 4 (.reader 0))) = some s ∧
        s.samples.length = 2 ∧ s.reported.length = 2 :=
    ⟨_, rfl, rfl, rfl⟩
  exact ⟨s, hsamples, hreported, reported_of_reachable (Reachable.of_run hrun)⟩

end SnappCollector.Writer
