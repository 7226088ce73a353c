import SnappCollector.Data.Smoothing
import SnappCollector.Writer.Load

/-!
# Where the averages come to rest

The macro is made for numbers in fixed point, and the writer gives it plain lengths: the
fraction that it shifts away is lost in every round.  The averages are moving averages that
are rounded down, so they come down to a constant length, and stop short of it on the way
up.
-/

namespace SnappCollector.Writer

open Data

/-! ## The macro on natural numbers -/

/-- Neither a product nor the sum in the macro wraps. -/
structure LoadExact (load exp n : UInt64) : Prop where
  product : (load * exp).toNat = load.toNat * exp.toNat
  sample : (n * (FIXED_1 - exp)).toNat = n.toNat * (2048 - exp.toNat)
  sum : (load * exp + n * (FIXED_1 - exp)).toNat =
    load.toNat * exp.toNat + n.toNat * (2048 - exp.toNat)

theorem loadExact_of_fits {load exp n : UInt64} (hexp : exp.toNat ≤ 2048)
    (hfits : load.toNat * exp.toNat + n.toNat * (2048 - exp.toNat) < 2 ^ 64) :
    LoadExact load exp n := by
  have hrest : (FIXED_1 - exp).toNat = 2048 - exp.toNat :=
    UInt64.toNat_sub_of_le FIXED_1 exp (UInt64.le_iff_toNat_le.mpr hexp)
  have hload : (load * exp).toNat = load.toNat * exp.toNat := by
    rw [UInt64.toNat_mul, Nat.mod_eq_of_lt (by omega)]
  have hsample : (n * (FIXED_1 - exp)).toNat = n.toNat * (2048 - exp.toNat) := by
    rw [UInt64.toNat_mul, hrest, Nat.mod_eq_of_lt (by omega)]
  refine ⟨hload, hsample, ?_⟩
  rw [UInt64.toNat_add, hload, hsample, Nat.mod_eq_of_lt hfits]

theorem toNat_CALC_LOAD {load exp n : UInt64} (hexp : exp.toNat ≤ 2048)
    (hfits : load.toNat * exp.toNat + n.toNat * (2048 - exp.toNat) < 2 ^ 64) :
    (CALC_LOAD load exp n).toNat = smooth 2048 exp.toNat n.toNat load.toNat := by
  rw [CALC_LOAD, UInt64.toNat_shiftRight, (loadExact_of_fits hexp hfits).sum, smooth,
    Nat.shiftRight_eq_div_pow]
  rfl

theorem toNat_avg_queue_len (queue_sizes : List Nat) :
    (avg_queue_len queue_sizes).toNat = queue_sizes.sum % 2 ^ 64 := by
  have hfold : ∀ (sum : UInt64), (queue_sizes.foldl (fun sum size => sum + UInt64.ofNat size)
      sum).toNat = (sum.toNat + queue_sizes.sum) % 2 ^ 64 := by
    induction queue_sizes with
    | nil =>
        intro sum
        exact (Nat.mod_eq_of_lt sum.toNat_lt).symm
    | cons size queue_sizes ih =>
        intro sum
        rw [List.foldl_cons, ih, UInt64.toNat_add, UInt64.toNat_ofNat', List.sum_cons,
          Nat.add_mod_mod, Nat.mod_add_mod, Nat.add_assoc]
  have hzero := hfold 0
  rwa [UInt64.toNat_zero, Nat.zero_add] at hzero

/-! ## Runs with a constant length -/

/-- A repeated average with one sample that does not overflow. -/
structure Averages (exp : UInt64) (n : Nat) (average : Nat → UInt64) : Prop where
  exp_lt : exp.toNat < 2048
  sample : n * 2048 < 2 ^ 64
  start : (average 0).toNat * exp.toNat + n * (2048 - exp.toNat) < 2 ^ 64
  next : ∀ k, ∃ sample : UInt64, sample.toNat = n ∧
    average (k + 1) = CALC_LOAD (average k) exp sample

/-- From some call on the average is within 1 of the length. -/
def Converges (n : Nat) (average : Nat → UInt64) : Prop :=
  ∃ k, ∀ j ≥ k, (average j).toNat ≤ n + 1 ∧ n ≤ (average j).toNat + 1

namespace Averages

variable {exp : UInt64} {n : Nat} {average : Nat → UInt64}

theorem fits (h : Averages exp n average) {k : Nat}
    (hle : (average k).toNat ≤ max (average 0).toNat n) :
    (average k).toNat * exp.toNat + n * (2048 - exp.toNat) < 2 ^ 64 := by
  rcases le_max_iff.mp hle with hstart | hsample
  · have hproduct := Nat.mul_le_mul_right exp.toNat hstart
    have hfits := h.start
    omega
  · have hproduct := Nat.mul_le_mul_right exp.toNat hsample
    have hwhole : n * exp.toNat + n * (2048 - exp.toNat) = n * 2048 := by
      rw [← Nat.mul_add, Nat.add_sub_cancel' h.exp_lt.le]
    have hfits := h.sample
    omega

theorem toNat_eq (h : Averages exp n average) (k : Nat) :
    (average k).toNat = (smooth 2048 exp.toNat n)^[k] (average 0).toNat ∧
      (average k).toNat ≤ max (average 0).toNat n := by
  induction k with
  | zero => exact ⟨rfl, le_max_left _ _⟩
  | succ k ih =>
      obtain ⟨hiter, hle⟩ := ih
      obtain ⟨sample, hsample, hnext⟩ := h.next k
      have hfits := h.fits hle
      rw [hnext, toNat_CALC_LOAD h.exp_lt.le (hsample ▸ hfits), hsample, hiter,
        Function.iterate_succ_apply']
      refine ⟨rfl, ?_⟩
      rw [← hiter]
      exact (smooth_le_max h.exp_lt n _).trans (max_le hle (le_max_right _ _))

theorem converges_iff (h : Averages exp n average) : Converges n average ↔
    smooth_limit 2048 exp.toNat n (average 0).toNat ≤ n + 1 ∧
      n ≤ smooth_limit 2048 exp.toNat n (average 0).toNat + 1 := by
  obtain ⟨k, hk⟩ := eventually_smooth h.exp_lt n (average 0).toNat
  constructor
  · rintro ⟨k', hk'⟩
    have hnear := hk' (max k k') (le_max_right _ _)
    rwa [(h.toNat_eq _).1, hk _ (le_max_left _ _)] at hnear
  · intro hlimit
    refine ⟨k, fun j hj => ?_⟩
    rwa [(h.toNat_eq j).1, hk j hj]

end Averages

section

variable {queue_sizes : Nat → List Nat} {n : Nat} {local_status : Writer_status}

theorem toNat_avg_queue_len_of_sum {sizes : List Nat} (hsum : sizes.sum = n)
    (hn : n * 2048 < 2 ^ 64) : (avg_queue_len sizes).toNat = n := by
  rw [toNat_avg_queue_len, hsum, Nat.mod_eq_of_lt (by omega)]

theorem averages_1min (hlength : ∀ k, (queue_sizes k).sum = n) (hn : n * 2048 < 2 ^ 64)
    (hstart : local_status.avg_queue_len_1min.toNat * 1884 + n * 164 < 2 ^ 64) :
    Averages EXP_1 n fun k => (status_after queue_sizes local_status k).avg_queue_len_1min :=
  ⟨by decide, hn, hstart, fun k => ⟨_, toNat_avg_queue_len_of_sum (hlength k) hn, rfl⟩⟩

theorem averages_5min (hlength : ∀ k, (queue_sizes k).sum = n) (hn : n * 2048 < 2 ^ 64)
    (hstart : local_status.avg_queue_len_5min.toNat * 2014 + n * 34 < 2 ^ 64) :
    Averages EXP_5 n fun k => (status_after queue_sizes local_status k).avg_queue_len_5min :=
  ⟨by decide, hn, hstart, fun k => ⟨_, toNat_avg_queue_len_of_sum (hlength k) hn, rfl⟩⟩

/-- Where it is 12 short of the length, or 60 with the other constant, an average does not
move any more. -/
theorem gaps : gap 2048 EXP_1.toNat = 12 ∧ gap 2048 EXP_5.toNat = 60 := by decide

/-- An average comes within 1 of a constant length exactly if it starts there or above. -/
theorem averages_converge_iff (hlength : ∀ k, (queue_sizes k).sum = n) (hn : n * 2048 < 2 ^ 64)
    (hstart_1min : local_status.avg_queue_len_1min.toNat * 1884 + n * 164 < 2 ^ 64)
    (hstart_5min : local_status.avg_queue_len_5min.toNat * 2014 + n * 34 < 2 ^ 64) :
    (Converges n (fun k => (status_after queue_sizes local_status k).avg_queue_len_1min) ↔
      n ≤ local_status.avg_queue_len_1min.toNat + 1) ∧
    (Converges n (fun k => (status_after queue_sizes local_status k).avg_queue_len_5min) ↔
      n ≤ local_status.avg_queue_len_5min.toNat + 1) := by
  rw [(averages_1min hlength hn hstart_1min).converges_iff,
    (averages_5min hlength hn hstart_5min).converges_iff]
  simp only [smooth_limit, gaps.1, gaps.2, status_after]
  constructor
  · split <;> omega
  · split <;> omega

end

/-- An average of 4 is near five data, and one of 1000 comes down to them. -/
theorem averages_of_five :
    Converges 5 (fun k => (status_after (fun _ => [2, 3]) ⟨4, 1000⟩ k).avg_queue_len_1min) ∧
      Converges 5 (fun k => (status_after (fun _ => [2, 3]) ⟨4, 1000⟩ k).avg_queue_len_5min) := by
  obtain ⟨h1min, h5min⟩ := @averages_converge_iff (fun _ => [2, 3]) 5 ⟨4, 1000⟩ (fun _ => rfl)
    (by decide) (by decide) (by decide)
  exact ⟨h1min.mpr (by decide), h5min.mpr (by decide)⟩

/-- Five data in the queues for ever, and the writer reports that there are none. -/
theorem average_stays_zero :
    ¬∀ (queue_sizes : Nat → List Nat) (n : Nat) (local_status : Writer_status),
      (∀ k, (queue_sizes k).sum = n) → n * 2048 < 2 ^ 64 →
      local_status.avg_queue_len_1min.toNat * 1884 + n * 164 < 2 ^ 64 →
      local_status.avg_queue_len_5min.toNat * 2014 + n * 34 < 2 ^ 64 →
      Converges n (fun k => (status_after queue_sizes local_status k).avg_queue_len_1min) ∧
        Converges n fun k => (status_after queue_sizes local_status k).avg_queue_len_5min := by
  intro hall
  obtain ⟨⟨k, hk⟩, _⟩ := hall (fun _ => [5]) 5 ⟨0, 0⟩ (fun _ => rfl) (by decide) (by decide)
    (by decide)
  have hzero : ∀ k, status_after (fun _ => [5]) ⟨0, 0⟩ k = ⟨0, 0⟩ := by
    intro k
    induction k with
    | zero => rfl
    | succ k ih =>
        rw [status_after, ih]
        decide
  have hnear := (hk k le_rfl).2
  simp only [hzero] at hnear
  exact absurd hnear (by decide)

end SnappCollector.Writer
