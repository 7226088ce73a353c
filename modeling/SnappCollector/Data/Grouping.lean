import Mathlib.Data.List.Induction
import Mathlib.Data.List.Nodup

/-!
# Grouping a list by a key

`keys` are the distinct keys in the order in which they appear, `group` the
elements with one key.  In a list sorted by key, an element at the end either
opens a group behind all others or extends the last one.
-/

namespace SnappCollector.Data

variable {α β κ : Type*}

def keys [DecidableEq κ] (key : α → κ) (xs : List α) : List κ := (xs.map key).eraseDups

def group [DecidableEq κ] (key : α → κ) (k : κ) (xs : List α) : List α := xs.filter (key · = k)

def mapGroups [DecidableEq κ] (key : α → κ) (f : κ → List α → β) (xs : List α) : List β :=
  (keys key xs).map fun k => f k (group key k xs)

section

variable [DecidableEq κ] {key : α → κ} {f : κ → List α → β} {xs : List α} {x : α} {k : κ}

@[simp] theorem keys_nil : keys key [] = [] := rfl

@[simp] theorem mapGroups_nil : mapGroups key f [] = [] := rfl

theorem mem_keys : k ∈ keys key xs ↔ k ∈ xs.map key := List.mem_eraseDups

theorem group_concat_self : group key (key x) (xs ++ [x]) = group key (key x) xs ++ [x] := by
  simp [group]

theorem group_concat_of_ne (h : key x ≠ k) : group key k (xs ++ [x]) = group key k xs := by
  simp [group, h]

theorem group_eq_nil (h : k ∉ xs.map key) : group key k xs = [] := by
  rw [group, List.filter_eq_nil_iff]
  intro x hx hkey
  exact h (List.mem_map.mpr ⟨x, hx, by simpa using hkey⟩)

theorem keys_concat_of_notMem (h : key x ∉ xs.map key) :
    keys key (xs ++ [x]) = keys key xs ++ [key x] := by
  rw [keys, List.map_append, List.eraseDups_append, List.map_singleton, List.removeAll,
    List.filter_cons_of_pos (by simpa using h)]
  rfl

theorem keys_concat_of_mem (h : key x ∈ xs.map key) : keys key (xs ++ [x]) = keys key xs := by
  rw [keys, List.map_append, List.eraseDups_append, List.map_singleton, List.removeAll,
    List.filter_cons_of_neg (by simpa using h)]
  exact List.append_nil _

theorem nodup_keys (key : α → κ) (xs : List α) : (keys key xs).Nodup := by
  induction xs using List.reverseRecOn with
  | nil => exact List.nodup_nil
  | append_singleton xs x ih =>
      by_cases hmem : key x ∈ xs.map key
      · rwa [keys_concat_of_mem hmem]
      · rw [keys_concat_of_notMem hmem]
        exact ih.append (List.nodup_singleton _) (by simpa [mem_keys] using hmem)

theorem mapGroups_concat_new (h : key x ∉ xs.map key) :
    mapGroups key f (xs ++ [x]) = mapGroups key f xs ++ [f (key x) [x]] := by
  rw [mapGroups, keys_concat_of_notMem h, List.map_append, List.map_singleton,
    group_concat_self, group_eq_nil h]
  congr 1
  apply List.map_congr_left
  intro k hk
  have hne : key x ≠ k := fun heq => h (heq ▸ mem_keys.mp hk)
  rw [group_concat_of_ne hne]

theorem mapGroups_concat_last {ks : List κ} (hks : keys key xs = ks ++ [key x]) :
    ∃ before, mapGroups key f xs = before ++ [f (key x) (group key (key x) xs)] ∧
      mapGroups key f (xs ++ [x]) = before ++ [f (key x) (group key (key x) xs ++ [x])] := by
  have hmem : key x ∈ xs.map key := by
    rw [← mem_keys, hks]
    simp
  have hnotin : key x ∉ ks := by
    have hnodup := nodup_keys key xs
    rw [hks] at hnodup
    intro hin
    exact (List.nodup_append.mp hnodup).2.2 _ hin _ (by simp) rfl
  refine ⟨ks.map fun k => f k (group key k xs), ?_, ?_⟩
  · rw [mapGroups, hks, List.map_append, List.map_singleton]
  · rw [mapGroups, keys_concat_of_mem hmem, hks, List.map_append, List.map_singleton,
      group_concat_self]
    congr 1
    apply List.map_congr_left
    intro k hk
    have hne : key x ≠ k := fun heq => hnotin (heq ▸ hk)
    rw [group_concat_of_ne hne]

end

section Sorted

variable [DecidableEq κ] [LE κ] [Std.IsPartialOrder κ] {key : α → κ} {xs : List α} {x : α}

omit [DecidableEq κ] in
/-- In a sorted list the key of an element at the end is new or that of the last one. -/
theorem key_notMem_of_ne {y : α} (hsorted : ((xs ++ [y]) ++ [x]).Pairwise (key · ≤ key ·))
    (hne : key x ≠ key y) : key x ∉ (xs ++ [y]).map key := by
  intro hmem
  obtain ⟨z, hz, hkey⟩ := List.mem_map.mp hmem
  obtain ⟨hbefore, -, hlast⟩ := List.pairwise_append.mp hsorted
  have hyx : key y ≤ key x := hlast y (by simp) x (by simp)
  have hzy : key z ≤ key y := by
    rcases List.mem_append.mp hz with hin | heq
    · exact (List.pairwise_append.mp hbefore).2.2 z hin y (by simp)
    · rw [List.mem_singleton.mp heq]
      exact Std.le_refl _
  exact hne (Std.le_antisymm (hkey ▸ hzy) hyx)

theorem keys_concat_eq_append (hsorted : (xs ++ [x]).Pairwise (key · ≤ key ·)) :
    ∃ ks, keys key (xs ++ [x]) = ks ++ [key x] := by
  induction xs using List.reverseRecOn generalizing x with
  | nil => exact ⟨[], rfl⟩
  | append_singleton xs y ih =>
      by_cases hkey : key x = key y
      · have hmem : key x ∈ (xs ++ [y]).map key := by simp [hkey]
        rw [keys_concat_of_mem hmem, hkey]
        exact ih (List.pairwise_append.mp hsorted).1
      · exact ⟨_, keys_concat_of_notMem (key_notMem_of_ne hsorted hkey)⟩

end Sorted

end SnappCollector.Data
