import Mathlib.Data.List.Nodup

/-!
# Joins and groups

Tables are lists of rows.  A left join keeps every row of the left table; a grouped
answer has one row for every key, and which one is left open.
-/

namespace SnappCollector.Data

variable {α β κ : Type*}

def join (on : α → β → Bool) (xs : List α) (ys : List β) : List (α × β) :=
  xs.flatMap fun x => (ys.filter (on x)).map (x, ·)

/-- The join, with a row of NULLs for a left row that has no partner. -/
def leftJoin (on : α → β → Bool) (xs : List α) (ys : List β) : List (α × Option β) :=
  xs.flatMap fun x =>
    match ys.filter (on x) with
    | [] => [(x, none)]
    | matching => matching.map (x, some ·)

section Joins

variable {on : α → β → Bool} {xs : List α} {ys : List β} {x : α} {y : β}

theorem mem_join : (x, y) ∈ join on xs ys ↔ x ∈ xs ∧ y ∈ ys ∧ on x y := by
  simp [join, and_assoc]

/-- A left row with at most one partner stands in a join at most once. -/
theorem map_fst_join_sublist (hone : ∀ x ∈ xs, (ys.filter (on x)).length ≤ 1) :
    List.Sublist ((join on xs ys).map Prod.fst) xs := by
  induction xs with
  | nil => exact List.Sublist.refl _
  | cons x xs ih =>
      have hrest := ih fun x' hx' => hone x' (List.mem_cons_of_mem _ hx')
      have hx := hone x (List.mem_cons_self ..)
      rw [join, List.flatMap_cons, List.map_append, List.map_map]
      rcases hmatching : ys.filter (on x) with _ | ⟨y, rest⟩
      · exact hrest.cons _
      · rw [hmatching] at hx
        obtain rfl : rest = [] := by simpa using hx
        exact hrest.cons_cons _

theorem exists_mem_leftJoin (on : α → β → Bool) (ys : List β) (hx : x ∈ xs) :
    ∃ y, (x, y) ∈ leftJoin on xs ys := by
  cases hmatching : ys.filter (on x) with
  | nil => exact ⟨none, List.mem_flatMap.mpr ⟨x, hx, by simp [hmatching]⟩⟩
  | cons y rest => exact ⟨some y, List.mem_flatMap.mpr ⟨x, hx, by simp [hmatching]⟩⟩

end Joins

/-- What a database may answer where it groups `rows` by `key`. -/
structure Grouped (key : α → κ) (rows answer : List α) : Prop where
  subset : answer ⊆ rows
  nodup : (answer.map key).Nodup
  covers : ∀ row ∈ rows, key row ∈ answer.map key

theorem Grouped.exists_mem {key : α → κ} {rows answer : List α} (h : Grouped key rows answer)
    {row : α} (hrow : row ∈ rows) : ∃ row' ∈ answer, key row' = key row :=
  List.mem_map.mp (h.covers row hrow)

end SnappCollector.Data
