import Mathlib.Data.Nat.Dist
import Mathlib.Logic.Function.Iterate

/-!
# Moving averages that are rounded down

`smooth d e n x` moves the average `x` towards the sample `n`: `e` parts of `d` of the old
average and the rest of the sample, rounded down.  Repeated with one sample it comes down to
the sample from above; from below it stops `gap d e` short of it.
-/

namespace SnappCollector.Data

def smooth (d e n x : ℕ) : ℕ := (x * e + n * (d - e)) / d

/-- How far below the sample an average can be and not move any more. -/
def gap (d e : ℕ) : ℕ := (d - 1) / (d - e)

def smooth_limit (d e n x : ℕ) : ℕ := if n ≤ x then n else max x (n - gap d e)

variable {d e n x : ℕ}

theorem smooth_mono {m y : ℕ} (hn : n ≤ m) (hx : x ≤ y) : smooth d e n x ≤ smooth d e m y :=
  Nat.div_le_div_right (Nat.add_le_add (Nat.mul_le_mul_right _ hx) (Nat.mul_le_mul_right _ hn))

section

variable (hed : e < d)

include hed

theorem smooth_self : smooth d e n n = n := by
  rw [smooth, ← Nat.mul_add, Nat.add_sub_cancel' hed.le, Nat.mul_div_cancel _ (by omega)]

theorem le_smooth_of_ge (hx : n ≤ x) : n ≤ smooth d e n x :=
  (smooth_self hed).ge.trans (smooth_mono le_rfl hx)

theorem smooth_le_of_le (hx : x ≤ n) : smooth d e n x ≤ n :=
  (smooth_mono le_rfl hx).trans (smooth_self hed).le

theorem smooth_lt_of_gt (hx : n < x) : smooth d e n x < x := by
  rw [smooth, Nat.div_lt_iff_lt_mul (by omega)]
  calc x * e + n * (d - e) < x * e + x * (d - e) :=
        Nat.add_lt_add_left (Nat.mul_lt_mul_of_pos_right hx (by omega)) _
    _ = x * d := by rw [← Nat.mul_add, Nat.add_sub_cancel' hed.le]

theorem smooth_le_max (n x : ℕ) : smooth d e n x ≤ max x n := by
  rcases Nat.lt_or_ge n x with habove | hbelow
  · exact (smooth_lt_of_gt hed habove).le.trans (le_max_left x n)
  · exact (smooth_le_of_le hed hbelow).trans (le_max_right x n)

/-- Below the sample the average moves up by this part of the distance. -/
theorem smooth_of_le (hx : x ≤ n) : smooth d e n x = x + (n - x) * (d - e) / d := by
  have hsum : x * e + n * (d - e) = x * d + (n - x) * (d - e) := by
    calc x * e + n * (d - e) = x * e + (x + (n - x)) * (d - e) := by rw [Nat.add_sub_cancel' hx]
      _ = x * (e + (d - e)) + (n - x) * (d - e) := by
        rw [Nat.add_mul, Nat.mul_add, Nat.add_assoc]
      _ = x * d + (n - x) * (d - e) := by rw [Nat.add_sub_cancel' hed.le]
  rw [smooth, hsum, Nat.mul_comm x d, Nat.mul_add_div (by omega)]

theorem le_gap_iff {k : ℕ} : k ≤ gap d e ↔ k * (d - e) < d := by
  rw [gap, Nat.le_div_iff_mul_le (by omega)]
  omega

theorem smooth_of_near (hx : x ≤ n) (hnear : n ≤ x + gap d e) : smooth d e n x = x := by
  have hsmall := (le_gap_iff hed).mp (show n - x ≤ gap d e by omega)
  rw [smooth_of_le hed hx, Nat.div_eq_of_lt hsmall, Nat.add_zero]

theorem lt_smooth_of_far (hfar : x + gap d e < n) : x < smooth d e n x := by
  have hlarge : d ≤ (n - x) * (d - e) := by
    by_contra hsmall
    have hle := (le_gap_iff hed).mpr (Nat.lt_of_not_le hsmall)
    omega
  have hstep : 0 < (n - x) * (d - e) / d := Nat.div_pos hlarge (by omega)
  rw [smooth_of_le hed (by omega)]
  omega

/-- From far below the average does not come closer than the gap. -/
theorem smooth_add_gap_le (hfar : x + gap d e < n) : smooth d e n x + gap d e ≤ n := by
  have hstop : smooth d e n (n - gap d e) = n - gap d e :=
    smooth_of_near hed (by omega) (by omega)
  have hmono : smooth d e n x ≤ smooth d e n (n - gap d e) := smooth_mono le_rfl (by omega)
  omega

theorem smooth_limit_smooth (n x : ℕ) :
    smooth_limit d e n (smooth d e n x) = smooth_limit d e n x := by
  rcases Nat.lt_or_ge x n with hbelow | habove
  · have hle := smooth_le_of_le hed hbelow.le
    by_cases hnear : n ≤ x + gap d e
    · rw [smooth_of_near hed hbelow.le hnear]
    · have hgap := smooth_add_gap_le hed (Nat.lt_of_not_le hnear)
      have hup := lt_smooth_of_far hed (Nat.lt_of_not_le hnear)
      unfold smooth_limit
      rw [if_neg (Nat.not_le.mpr hbelow)]
      split
      · -- the sample itself is reached only without a gap
        omega
      · omega
  · unfold smooth_limit
    rw [if_pos habove, if_pos (le_smooth_of_ge hed habove)]

theorem smooth_limit_of_stopped (hstop : smooth d e n x = x) : smooth_limit d e n x = x := by
  unfold smooth_limit
  split
  · rename_i habove
    by_contra hne
    have hlt := smooth_lt_of_gt hed (show n < x by omega)
    omega
  · rename_i hbelow
    have hnear : n ≤ x + gap d e := by
      by_contra hfar
      have hup := lt_smooth_of_far hed (Nat.lt_of_not_le hfar)
      omega
    omega

theorem dist_smooth_lt (hmoves : smooth d e n x ≠ x) :
    Nat.dist (smooth d e n x) n < Nat.dist x n := by
  unfold Nat.dist
  rcases Nat.lt_or_ge x n with hbelow | habove
  · have hle := smooth_le_of_le hed hbelow.le
    by_cases hnear : n ≤ x + gap d e
    · exact absurd (smooth_of_near hed hbelow.le hnear) hmoves
    · have hup := lt_smooth_of_far hed (Nat.lt_of_not_le hnear)
      omega
  · have hge := le_smooth_of_ge hed habove
    rcases Nat.eq_or_lt_of_le habove with rfl | habove
    · exact absurd (smooth_self hed) hmoves
    · have hdown := smooth_lt_of_gt hed habove
      omega

/-- With one sample again and again the average comes to its limit and stays there. -/
theorem eventually_smooth (n x : ℕ) :
    ∃ k, ∀ j ≥ k, (smooth d e n)^[j] x = smooth_limit d e n x := by
  induction hdist : Nat.dist x n using Nat.strong_induction_on generalizing x with
  | h dist ih =>
      by_cases hstop : smooth d e n x = x
      · refine ⟨0, fun j _ => ?_⟩
        rw [smooth_limit_of_stopped hed hstop]
        exact Function.iterate_fixed hstop j
      · have hcloser := dist_smooth_lt hed hstop
        obtain ⟨k, hk⟩ := ih _ (hdist ▸ hcloser) (smooth d e n x) rfl
        refine ⟨k + 1, fun j hj => ?_⟩
        obtain ⟨j, rfl⟩ := Nat.exists_eq_add_of_le' (show 1 ≤ j by omega)
        rw [Function.iterate_succ_apply, hk j (by omega), smooth_limit_smooth hed]

end

end SnappCollector.Data
