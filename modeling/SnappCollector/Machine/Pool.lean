import Mathlib.Algebra.BigOperators.Fin
import Mathlib.Algebra.Order.BigOperators.Group.Finset
import Mathlib.Data.Fintype.BigOperators

/-!
# Pools of threads

A pool of threads is a function from thread numbers to places in the code, and a
step moves one thread.  `numAt p pool` is the number of threads at a place with
`p`; it changes by what the thread that moves contributes.
-/

namespace SnappCollector.Machine

variable {ι α : Type*}

section Moves

variable [DecidableEq ι] {pool : ι → α} {i : ι} {x : α}

theorem update_cases (pool : ι → α) (i : ι) (x : α) (j : ι) :
    j = i ∧ Function.update pool i x j = x ∨ Function.update pool i x j = pool j := by
  by_cases hj : j = i
  · left
    rw [hj]
    exact ⟨rfl, Function.update_self i x pool⟩
  · right
    rw [Function.update_of_ne hj]

theorem update_congr {β : Type*} (f : α → β) (hx : f x = f (pool i)) (j : ι) :
    f (Function.update pool i x j) = f (pool j) := by
  rcases update_cases pool i x j with ⟨rfl, hj⟩ | hj
  · rw [hj, hx]
  · rw [hj]

theorem update_imp (p : α → Prop) (hx : p x → p (pool i)) {j : ι}
    (h : p (Function.update pool i x j)) : p (pool j) := by
  rcases update_cases pool i x j with ⟨rfl, hj⟩ | hj
  · rw [hj] at h
    exact hx h
  · rwa [← hj]

theorem update_mono (p : α → Prop) (hx : p (pool i) → p x) {j : ι} (h : p (pool j)) :
    p (Function.update pool i x j) := by
  rcases update_cases pool i x j with ⟨rfl, hj⟩ | hj
  · rw [hj]
    exact hx h
  · rwa [hj]

end Moves

variable [Fintype ι]

theorem sum_add_of_eq [DecidableEq ι] {f g : ι → Nat} {i : ι} (h : ∀ j, j ≠ i → g j = f j) :
    ∑ j, g j + f i = ∑ j, f j + g i := by
  have hrest : ∑ j ∈ Finset.univ.erase i, g j = ∑ j ∈ Finset.univ.erase i, f j := by
    apply Finset.sum_congr rfl
    intro j hj
    exact h j (Finset.ne_of_mem_erase hj)
  have hnew := Finset.add_sum_erase Finset.univ g (Finset.mem_univ i)
  have hold := Finset.add_sum_erase Finset.univ f (Finset.mem_univ i)
  omega

/-- The number of threads of the pool at a place with `p`. -/
def numAt (p : α → Bool) (pool : ι → α) : Nat := ∑ i, (p (pool i)).toNat

variable {p : α → Bool} {pool : ι → α}

theorem numAt_update [DecidableEq ι] (p : α → Bool) (pool : ι → α) (i : ι) (x : α) :
    numAt p (Function.update pool i x) + (p (pool i)).toNat =
      numAt p pool + (p x).toNat := by
  have hrest : ∑ j ∈ Finset.univ.erase i, (p (Function.update pool i x j)).toNat =
      ∑ j ∈ Finset.univ.erase i, (p (pool j)).toNat := by
    apply Finset.sum_congr rfl
    intro j hj
    rw [Function.update_of_ne (Finset.ne_of_mem_erase hj)]
  have hnew := Finset.add_sum_erase Finset.univ
    (fun j => (p (Function.update pool i x j)).toNat) (Finset.mem_univ i)
  have hold := Finset.add_sum_erase Finset.univ
    (fun j => (p (pool j)).toNat) (Finset.mem_univ i)
  simp only [Function.update_self] at hnew
  unfold numAt
  omega

theorem numAt_update_of_eq [DecidableEq ι] {i : ι} {x : α} (hx : p x = p (pool i)) :
    numAt p (Function.update pool i x) = numAt p pool := by
  unfold numAt
  apply Finset.sum_congr rfl
  intro j _
  rw [update_congr p hx j]

theorem numAt_pos {i : ι} (h : p (pool i) = true) : 0 < numAt p pool := by
  have hle : (p (pool i)).toNat ≤ numAt p pool :=
    Finset.single_le_sum (f := fun j => (p (pool j)).toNat) (fun _ _ => Nat.zero_le _)
      (Finset.mem_univ i)
  rw [h] at hle
  exact hle

theorem numAt_eq_zero_iff : numAt p pool = 0 ↔ ∀ i, p (pool i) = false := by
  simp [numAt, Bool.toNat_eq_zero]

theorem numAt_le_card : numAt p pool ≤ Fintype.card ι := by
  calc
    numAt p pool ≤ ∑ _i : ι, 1 := Finset.sum_le_sum fun i _ => Bool.toNat_le _
    _ = Fintype.card ι := by simp

theorem numAt_eq_card_iff : numAt p pool = Fintype.card ι ↔ ∀ i, p (pool i) = true := by
  constructor
  · intro h i
    by_contra hi
    have hlt : numAt p pool < ∑ _i : ι, 1 :=
      Finset.sum_lt_sum (fun j _ => Bool.toNat_le _)
        ⟨i, Finset.mem_univ i, by simp [Bool.eq_false_of_not_eq_true hi]⟩
    simp at hlt
    omega
  · intro h
    simp [numAt, h]

theorem eq_of_numAt_le_one (h : numAt p pool ≤ 1) {i j : ι} (hi : p (pool i) = true)
    (hj : p (pool j) = true) : i = j := by
  classical
  by_contra hne
  have hpair : ∑ l ∈ {i, j}, (p (pool l)).toNat ≤ numAt p pool :=
    Finset.sum_le_sum_of_subset (Finset.subset_univ _)
  rw [Finset.sum_pair hne, hi, hj, Bool.toNat_true] at hpair
  omega

/-! ## Lists of threads -/

omit [Fintype ι] in
theorem countP_set_add {xs : List α} {i : Nat} {x : α} (hx : xs[i]? = some x) (y : α) :
    (xs.set i y).countP p + (p x).toNat = xs.countP p + (p y).toNat := by
  induction xs generalizing i with
  | nil => simp at hx
  | cons z xs ih =>
      cases i with
      | zero =>
          obtain rfl : z = x := by simpa using hx
          cases hz : p z <;> cases hy : p y <;> simp [hz, hy]
      | succ i =>
          have htail := ih (i := i) (by simpa using hx)
          simp only [List.set_cons_succ, List.countP_cons]
          omega

theorem sum_map_set_add {xs : List α} {i : Nat} {x : α} (hx : xs[i]? = some x) (f : α → Nat)
    (y : α) : ((xs.set i y).map f).sum + f x = (xs.map f).sum + f y := by
  induction xs generalizing i with
  | nil => simp at hx
  | cons z xs ih =>
      cases i with
      | zero =>
          obtain rfl : z = x := by simpa using hx
          simp only [List.set_cons_zero, List.map_cons, List.sum_cons]
          omega
      | succ i =>
          have htail := ih (i := i) (by simpa using hx)
          simp only [List.set_cons_succ, List.map_cons, List.sum_cons]
          omega

end SnappCollector.Machine
