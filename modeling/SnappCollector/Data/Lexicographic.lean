import Mathlib.Data.List.Lex
import SnappCollector.Data.SortedPages

/-!
# Subtrees in lexicographic order

Words that share a beginning stand side by side in the order, right behind the beginning
itself.  A list whose keys increase can be read on from any of its elements.
-/

namespace SnappCollector.Data

section Words

variable {α : Type*} [LinearOrder α] {p x y z : List α}

theorem cons_le_cons_iff {a b : α} {x y : List α} : a :: x ≤ b :: y ↔ a < b ∨ a = b ∧ x ≤ y := by
  rw [← not_lt, ← not_lt, List.cons_lt_cons_iff, not_or, not_lt, not_and]
  constructor
  · rintro ⟨hab, hxy⟩
    rcases hab.lt_or_eq with hlt | heq
    · exact .inl hlt
    · exact .inr ⟨heq, hxy heq.symm⟩
  · rintro (hlt | ⟨rfl, hxy⟩)
    · exact ⟨hlt.le, fun heq => absurd heq hlt.ne'⟩
    · exact ⟨le_rfl, fun _ => hxy⟩

theorem isPrefix_of_between (hx : p <+: x) (hz : p <+: z) (hxy : x ≤ y) (hyz : y ≤ z) :
    p <+: y := by
  induction p generalizing x y z with
  | nil => exact List.nil_prefix
  | cons a p ih =>
      obtain ⟨x, rfl⟩ := hx
      obtain ⟨z, rfl⟩ := hz
      cases y with
      | nil => exact absurd (List.nil_lt_cons a (p ++ x)) hxy.not_gt
      | cons b y =>
          rw [List.cons_append, cons_le_cons_iff] at hxy hyz
          have hab : a = b := by
            apply le_antisymm
            · exact hxy.elim le_of_lt fun heq => heq.1.le
            · exact hyz.elim le_of_lt fun heq => heq.1.le
          subst hab
          simp only [lt_irrefl, false_or, true_and] at hxy hyz
          have hy : p <+: y := ih (List.prefix_append p x) (List.prefix_append p z) hxy hyz
          exact List.cons_prefix_cons.mpr ⟨rfl, hy⟩

/-- Behind a word that has left the subtree there is nothing more of it. -/
theorem not_isPrefix_of_lt (hx : p <+: x) (hxy : x < y) (hy : ¬p <+: y) (hyz : y < z) :
    ¬p <+: z :=
  fun hz => hy (isPrefix_of_between hx hz hxy.le hyz.le)

theorem lt_iff_ne_of_isPrefix (h : p <+: x) : p < x ↔ x ≠ p := by
  have hle : p ≤ x := not_lt.mp (List.IsPrefix.le h)
  exact ⟨fun hlt => hlt.ne', fun hne => lt_of_le_of_ne hle hne.symm⟩

end Words

section Increasing

variable {α κ : Type*} [LinearOrder κ] {key : α → κ} {xs ys : List α}

abbrev IncreasingBy (key : α → κ) (xs : List α) : Prop := xs.Pairwise (key · < key ·)

theorem IncreasingBy.above (h : IncreasingBy key xs) (k : κ) : IncreasingBy key (above key k xs) :=
  h.filter _

theorem mem_above {k : κ} {x : α} : x ∈ above key k xs ↔ x ∈ xs ∧ k < key x := by
  simp [Data.above]

/-- What is above the last element read is what has not been read. -/
theorem above_key_getLast (h : IncreasingBy key (xs ++ ys)) {last : α}
    (hlast : xs.getLast? = some last) : above key (key last) (xs ++ ys) = ys := by
  obtain ⟨before, rfl⟩ := List.getLast?_eq_some_iff.mp hlast
  obtain ⟨hread, _, hrest⟩ := List.pairwise_append.mp h
  have hbefore := (List.pairwise_append.mp hread).2.2
  have hnone : (before ++ [last]).filter (key last < key ·) = [] := by
    apply List.filter_eq_nil_iff.mpr
    intro x hx
    rcases List.mem_append.mp hx with hin | hin
    · simpa using (hbefore x hin last (by simp)).le
    · simp [List.mem_singleton.mp hin]
  have hall : ys.filter (key last < key ·) = ys := by
    apply List.filter_eq_self.mpr
    intro y hy
    simpa using hrest last (by simp) y hy
  rw [Data.above, List.filter_append, hnone, hall, List.nil_append]

theorem above_above {k l : κ} (hkl : k ≤ l) : above key l (above key k xs) = above key l xs := by
  rw [Data.above, Data.above, Data.above, List.filter_filter]
  apply List.filter_congr
  intro x _
  have himp : l < key x → k < key x := hkl.trans_lt
  simpa using himp

end Increasing

end SnappCollector.Data
