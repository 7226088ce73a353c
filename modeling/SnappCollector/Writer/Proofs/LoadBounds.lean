import SnappCollector.Writer.Proofs.Load

/-!
# Bounds on the averages

From zero an average never exceeds the largest length that it was given, whatever the history;
so nothing overflows as long as 2048 times that length fits into 64 bits, and longer queues
never give a smaller average.
-/

namespace SnappCollector.Writer

open Data

def largest (queue_sizes : Nat → List Nat) : Nat → Nat
  | 0 => 0
  | k + 1 => max (queue_sizes k).sum (largest queue_sizes k)

def Writer_status.zeroed : Writer_status := ⟨0, 0⟩

structure FromZero (exp : UInt64) (B : Nat) (queue_sizes : Nat → List Nat)
    (average : Nat → UInt64) : Prop where
  exp_lt : exp.toNat < 2048
  fits : B * 2048 < 2 ^ 64
  sum_le : ∀ k, (queue_sizes k).sum ≤ B
  start : average 0 = 0
  next : ∀ k, average (k + 1) = CALC_LOAD (average k) exp (avg_queue_len (queue_sizes k))

namespace FromZero

variable {exp : UInt64} {B : Nat} {queue_sizes queue_sizes' : Nat → List Nat}
  {average average' : Nat → UInt64} {k : Nat}

theorem largest_le (h : FromZero exp B queue_sizes average) (k : Nat) :
    largest queue_sizes k ≤ B := by
  induction k with
  | zero => exact Nat.zero_le B
  | succ k ih => exact max_le (h.sum_le k) ih

theorem toNat_length (h : FromZero exp B queue_sizes average) (k : Nat) :
    (avg_queue_len (queue_sizes k)).toNat = (queue_sizes k).sum := by
  have hB := h.fits
  have hle := h.sum_le k
  rw [toNat_avg_queue_len, Nat.mod_eq_of_lt (by omega)]

/-- An average and a length up to `B` weigh at most 2048 times `B`. -/
theorem lt_of_le (h : FromZero exp B queue_sizes average) (hle : (average k).toNat ≤ B) :
    (average k).toNat * exp.toNat +
      (avg_queue_len (queue_sizes k)).toNat * (2048 - exp.toNat) < 2 ^ 64 := by
  rw [h.toNat_length]
  calc (average k).toNat * exp.toNat + (queue_sizes k).sum * (2048 - exp.toNat)
      ≤ B * exp.toNat + B * (2048 - exp.toNat) :=
        Nat.add_le_add (Nat.mul_le_mul_right _ hle) (Nat.mul_le_mul_right _ (h.sum_le k))
    _ = B * 2048 := by rw [← Nat.mul_add, Nat.add_sub_cancel' h.exp_lt.le]
    _ < 2 ^ 64 := h.fits

theorem toNat_next (h : FromZero exp B queue_sizes average) (hle : (average k).toNat ≤ B) :
    (average (k + 1)).toNat =
      smooth 2048 exp.toNat (queue_sizes k).sum (average k).toNat := by
  rw [h.next, toNat_CALC_LOAD h.exp_lt.le (h.lt_of_le hle), h.toNat_length]

theorem le_largest (h : FromZero exp B queue_sizes average) (k : Nat) :
    (average k).toNat ≤ largest queue_sizes k := by
  induction k with
  | zero =>
      rw [h.start]
      exact Nat.zero_le _
  | succ k ih =>
      rw [h.toNat_next (ih.trans (h.largest_le k)), largest]
      calc smooth 2048 exp.toNat (queue_sizes k).sum (average k).toNat
          ≤ max (average k).toNat (queue_sizes k).sum := smooth_le_max h.exp_lt _ _
        _ ≤ max (queue_sizes k).sum (largest queue_sizes k) :=
          max_le (ih.trans (le_max_right _ _)) (le_max_left _ _)

theorem le_bound (h : FromZero exp B queue_sizes average) (k : Nat) : (average k).toNat ≤ B :=
  (h.le_largest k).trans (h.largest_le k)

theorem loadExact (h : FromZero exp B queue_sizes average) (k : Nat) :
    LoadExact (average k) exp (avg_queue_len (queue_sizes k)) :=
  loadExact_of_fits h.exp_lt.le (h.lt_of_le (h.le_bound k))

/-- Of two histories the one with the longer queues has the larger average. -/
theorem mono (h : FromZero exp B queue_sizes average)
    (h' : FromZero exp B queue_sizes' average')
    (hsum : ∀ i < k, (queue_sizes i).sum ≤ (queue_sizes' i).sum) :
    (average k).toNat ≤ (average' k).toNat := by
  induction k with
  | zero => rw [h.start, h'.start]
  | succ k ih =>
      have hbefore := ih fun i hi => hsum i (Nat.lt_succ_of_lt hi)
      rw [h.toNat_next (h.le_bound k), h'.toNat_next (h'.le_bound k)]
      exact smooth_mono (hsum k (Nat.lt_succ_self k)) hbefore

end FromZero

section Status

variable {B : Nat} {queue_sizes queue_sizes' : Nat → List Nat}

theorem fromZero_1min (hB : B * 2048 < 2 ^ 64) (hle : ∀ k, (queue_sizes k).sum ≤ B) :
    FromZero EXP_1 B queue_sizes
      fun k => (status_after queue_sizes .zeroed k).avg_queue_len_1min :=
  ⟨by decide, hB, hle, rfl, fun _ => rfl⟩

theorem fromZero_5min (hB : B * 2048 < 2 ^ 64) (hle : ∀ k, (queue_sizes k).sum ≤ B) :
    FromZero EXP_5 B queue_sizes
      fun k => (status_after queue_sizes .zeroed k).avg_queue_len_5min :=
  ⟨by decide, hB, hle, rfl, fun _ => rfl⟩

/-- What holds of the status, from zero, after every number of calls. -/
structure StatusBounded (queue_sizes : Nat → List Nat) (k : Nat) : Prop where
  le_largest_1min :
    (status_after queue_sizes .zeroed k).avg_queue_len_1min.toNat ≤ largest queue_sizes k
  le_largest_5min :
    (status_after queue_sizes .zeroed k).avg_queue_len_5min.toNat ≤ largest queue_sizes k
  /-- nothing wraps in the next call -/
  length : (avg_queue_len (queue_sizes k)).toNat = (queue_sizes k).sum
  exact_1min : LoadExact (status_after queue_sizes .zeroed k).avg_queue_len_1min EXP_1
    (avg_queue_len (queue_sizes k))
  exact_5min : LoadExact (status_after queue_sizes .zeroed k).avg_queue_len_5min EXP_5
    (avg_queue_len (queue_sizes k))

/-- The averages of any history are bounded, and they grow with the lengths. -/
theorem status_bounded_mono (hB : B * 2048 < 2 ^ 64) (hle : ∀ k, (queue_sizes k).sum ≤ B)
    (hle' : ∀ k, (queue_sizes' k).sum ≤ B) (k : Nat) :
    StatusBounded queue_sizes k ∧
      ((∀ i < k, (queue_sizes i).sum ≤ (queue_sizes' i).sum) →
        (status_after queue_sizes .zeroed k).avg_queue_len_1min ≤
            (status_after queue_sizes' .zeroed k).avg_queue_len_1min ∧
          (status_after queue_sizes .zeroed k).avg_queue_len_5min ≤
            (status_after queue_sizes' .zeroed k).avg_queue_len_5min) := by
  have h1min := fromZero_1min hB hle
  have h5min := fromZero_5min hB hle
  refine ⟨⟨h1min.le_largest k, h5min.le_largest k, h1min.toNat_length k, h1min.loadExact k,
    h5min.loadExact k⟩, fun hsum => ?_⟩
  rw [UInt64.le_iff_toNat_le, UInt64.le_iff_toNat_le]
  exact ⟨h1min.mono (fromZero_1min hB hle') hsum, h5min.mono (fromZero_5min hB hle') hsum⟩

end Status

/-- Two queues with up to 500 data each, and the largest length that fits. -/
theorem status_bounded_mono_queues :
    StatusBounded (fun k => [k % 500, 7]) 100 ∧
      (status_after (fun k => [k % 500, 7]) .zeroed 100).avg_queue_len_1min ≤
        (status_after (fun _ => [2 ^ 53 - 1]) .zeroed 100).avg_queue_len_1min := by
  have hfirst : ∀ k, [k % 500, 7].sum ≤ 2 ^ 53 - 1 := by
    intro k
    simp only [List.sum_cons, List.sum_nil]
    omega
  obtain ⟨hbounded, hmono⟩ := @status_bounded_mono (2 ^ 53 - 1) (fun k => [k % 500, 7])
    (fun _ => [2 ^ 53 - 1]) (by decide) hfirst (fun _ => le_rfl) 100
  exact ⟨hbounded, (hmono fun i _ => hfirst i).1⟩

end SnappCollector.Writer
