import Mathlib.Data.List.AList
import Mathlib.Data.List.Dedup

/-!
# Append-only tables with an index map

A vector that only grows and a map from keys to the ids of positions.  The
table's names are distinct, so a name keeps its position for ever; `id` turns
positions into what the map stores, possibly losing information.
-/

namespace SnappCollector.Data

theorem getElem?_mono {α : Type*} {xs ys : List α} {i : Nat} {x : α} (h : xs <+: ys)
    (hx : xs[i]? = some x) : ys[i]? = some x := by
  obtain ⟨added, rfl⟩ := h
  have hi : i < xs.length := by
    by_contra hout
    rw [List.getElem?_eq_none (Nat.le_of_not_lt hout)] at hx
    cases hx
  rw [List.getElem?_append_left hi, hx]

/-! ## The first entry with every key -/

section First

variable {α κ : Type*} [DecidableEq κ]

/-- `kept` holds the first of the entries with each key. -/
structure Firsts (key : α → κ) (entries kept : List α) : Prop where
  nodup : (kept.map key).Nodup
  keys : ∀ k, k ∈ kept.map key ↔ k ∈ entries.map key
  first : ∀ x ∈ kept, entries.find? (key · = key x) = some x

namespace Firsts

variable {key : α → κ} {entries kept : List α} {x : α}

theorem nil (key : α → κ) : Firsts key [] [] := ⟨List.nodup_nil, by simp, by simp⟩

theorem find?_append_of_mem {k : κ} (hk : k ∈ entries.map key) (added : List α) :
    (entries ++ added).find? (key · = k) = entries.find? (key · = k) := by
  obtain ⟨y, hy, hkey⟩ := List.mem_map.mp hk
  have hsome : (entries.find? (key · = k)).isSome = true :=
    List.find?_isSome.mpr ⟨y, hy, decide_eq_true hkey⟩
  rw [List.find?_append, Option.or_of_isSome hsome]

theorem skip (h : Firsts key entries kept) (hx : key x ∈ kept.map key) :
    Firsts key (entries ++ [x]) kept where
  nodup := h.nodup
  keys k := by
    rw [h.keys, List.map_append, List.mem_append, List.map_singleton, List.mem_singleton]
    constructor
    · exact .inl
    · rintro (hold | rfl)
      · exact hold
      · exact (h.keys _).mp hx
  first y hy := by
    rw [find?_append_of_mem ((h.keys _).mp (List.mem_map_of_mem hy))]
    exact h.first y hy

theorem append (h : Firsts key entries kept) (hx : key x ∉ kept.map key) :
    Firsts key (entries ++ [x]) (kept ++ [x]) where
  nodup := by
    rw [List.map_append, List.map_singleton]
    exact h.nodup.append (List.nodup_singleton _) (by simpa using hx)
  keys k := by
    rw [List.map_append, List.map_append, List.mem_append, List.mem_append, h.keys]
  first y hy := by
    rcases List.mem_append.mp hy with hold | hlast
    · rw [find?_append_of_mem ((h.keys _).mp (List.mem_map_of_mem hold))]
      exact h.first y hold
    · obtain rfl := List.mem_singleton.mp hlast
      have hnone : entries.find? (key · = key y) = none := by
        rw [List.find?_eq_none]
        intro z hz hkey
        exact hx ((h.keys _).mpr (List.mem_map.mpr ⟨z, hz, of_decide_eq_true hkey⟩))
      rw [List.find?_append, hnone]
      simp

theorem length_eq (h : Firsts key entries kept) :
    kept.length = (entries.map key).dedup.length := by
  rw [← List.length_map key]
  apply List.Perm.length_eq
  rw [List.perm_ext_iff_of_nodup h.nodup (List.nodup_dedup _)]
  intro k
  rw [h.keys, List.mem_dedup]

end Firsts

end First

/-! ## The index -/

variable {κ ι : Type*} [DecidableEq κ] [BEq κ] [LawfulBEq κ]

/-- `index` sends every name to the id of its position and has no other key. -/
structure Indexes (id : Nat → ι) (index : AList fun _ : κ => ι) (names : List κ) : Prop where
  nodup : names.Nodup
  lookup : ∀ x, index.lookup x = if x ∈ names then some (id (names.idxOf x)) else none

namespace Indexes

variable {id : Nat → ι} {index : AList fun _ : κ => ι} {names : List κ} {x : κ}

theorem empty (id : Nat → ι) : Indexes id (∅ : AList fun _ : κ => ι) [] where
  nodup := List.nodup_nil
  lookup x := by simp

theorem lookup_of_mem (h : Indexes id index names) (hx : x ∈ names) :
    index.lookup x = some (id (names.idxOf x)) := by
  rw [h.lookup, if_pos hx]

theorem lookup_eq_none_iff (h : Indexes id index names) :
    index.lookup x = none ↔ x ∉ names := by
  rw [h.lookup]
  split <;> simp_all

theorem mem_of_lookup (h : Indexes id index names) {i : ι} (hx : index.lookup x = some i) :
    x ∈ names := by
  by_contra hnotin
  rw [← h.lookup_eq_none_iff, hx] at hnotin
  cases hnotin

theorem lookup_of_prefix {index' : AList fun _ : κ => ι} {names' : List κ} {i : ι}
    (h : Indexes id index names) (h' : Indexes id index' names') (hgrows : names <+: names')
    (hx : index.lookup x = some i) : index'.lookup x = some i := by
  have hmem := h.mem_of_lookup hx
  obtain ⟨added, rfl⟩ := hgrows
  rw [h.lookup_of_mem hmem] at hx
  rw [h'.lookup_of_mem (List.mem_append_left _ hmem), List.idxOf_append_of_mem hmem, hx]

theorem insert (h : Indexes id index names) (hx : x ∉ names) :
    Indexes id (index.insert x (id names.length)) (names ++ [x]) where
  nodup := h.nodup.append (List.nodup_singleton x) (by simpa using hx)
  lookup y := by
    by_cases hy : y = x
    · subst hy
      simp [AList.lookup_insert, List.idxOf_append_of_notMem hx]
    · rw [AList.lookup_insert_ne hy, h.lookup]
      by_cases hmem : y ∈ names
      · simp [hmem, List.idxOf_append_of_mem hmem]
      · simp [hmem, hy]

end Indexes

omit [DecidableEq κ] in
/-- A position reduced modulo `m` still leads to the name exactly when it was
below `m`. -/
theorem getElem?_idxOf_mod_iff {names : List κ} {x : κ} {m : Nat} (hnodup : names.Nodup)
    (hx : x ∈ names) (hm : 0 < m) :
    names[names.idxOf x % m]? = some x ↔ names.idxOf x < m := by
  have hlt : names.idxOf x < names.length := List.idxOf_lt_length_iff.mpr hx
  have hle : names.idxOf x % m ≤ names.idxOf x := Nat.mod_le _ _
  constructor
  · intro hget
    have hbound : names.idxOf x % m < names.length := by omega
    rw [List.getElem?_eq_getElem hbound, Option.some.injEq] at hget
    have hsame : names.idxOf x % m = names.idxOf x := by
      rw [← hget]
      conv_rhs => rw [hnodup.idxOf_getElem _ hbound]
      rw [hget]
    rw [← hsame]
    exact Nat.mod_lt _ hm
  · intro hid
    rw [Nat.mod_eq_of_lt hid, List.getElem?_eq_getElem hlt, List.getElem_idxOf hlt]

theorem Firsts.getElem?_idxOf {α : Type*} {key : α → κ} {entries kept : List α}
    (h : Firsts key entries kept) (k : κ) :
    kept[(kept.map key).idxOf k]? = entries.find? (key · = k) := by
  by_cases hk : k ∈ kept.map key
  · have hget := List.getElem?_idxOf hk
    rw [List.getElem?_map] at hget
    obtain ⟨x, hx, rfl⟩ := Option.map_eq_some_iff.mp hget
    rw [hx, h.first x (List.mem_of_getElem? hx)]
  · rw [List.idxOf_eq_length hk, List.length_map, List.getElem?_eq_none le_rfl]
    symm
    rw [List.find?_eq_none]
    intro z hz hkey
    exact hk ((h.keys k).mpr (List.mem_map.mpr ⟨z, hz, of_decide_eq_true hkey⟩))

omit [DecidableEq κ] in
/-- Two keys that tell the same entries apart give an entry the same position. -/
theorem idxOf_map_congr {α κ' : Type*} [BEq κ'] [LawfulBEq κ'] {f : α → κ} {g : α → κ'}
    {xs : List α} {x : α} (h : ∀ y ∈ xs, f y = f x ↔ g y = g x) :
    (xs.map f).idxOf (f x) = (xs.map g).idxOf (g x) := by
  induction xs with
  | nil => rfl
  | cons y xs ih =>
      have hy := h y (List.mem_cons_self ..)
      have hrest := ih fun z hz => h z (List.mem_cons_of_mem _ hz)
      by_cases hsame : f y = f x
      · rw [List.map_cons, List.map_cons, hsame, hy.mp hsame, List.idxOf_cons_self,
          List.idxOf_cons_self]
      · have hother : g y ≠ g x := fun heq => hsame (hy.mpr heq)
        rw [List.map_cons, List.map_cons, List.idxOf_cons_ne _ hsame,
          List.idxOf_cons_ne _ hother, hrest]

/-- `position` leads every key of an entry, and no other key, to the first entry with it. -/
structure Positions {α : Type*} (key : α → κ) (position : κ → Option Nat)
    (entries kept : List α) : Prop where
  /-- a bijection between the keys of the entries and the positions -/
  isSome_iff : ∀ k, (position k).isSome ↔ k ∈ entries.map key
  lt_length : ∀ k p, position k = some p → p < kept.length
  injective : ∀ k k' p, position k = some p → position k' = some p → k = k'
  surjective : ∀ p, p < kept.length → ∃ k, position k = some p
  /-- the entry there -/
  first : ∀ k, (position k).bind (kept[·]?) = entries.find? (key · = k)

/-- A map that still tells the positions apart finds them. -/
theorem Firsts.positions {α : Type*} {key : α → κ} {entries kept : List α}
    (h : Firsts key entries kept) {id : Nat → ι} {index : AList fun _ : κ => ι}
    (hindex : Indexes id index (kept.map key)) {toPosition : ι → Nat}
    (hposition : ∀ p, p < kept.length → toPosition (id p) = p) :
    Positions key (fun k => (index.lookup k).map toPosition) entries kept := by
  have hfound : ∀ k, k ∈ kept.map key →
      (index.lookup k).map toPosition = some ((kept.map key).idxOf k) := by
    intro k hk
    have hlt : (kept.map key).idxOf k < kept.length := by
      simpa using List.idxOf_lt_length_iff.mpr hk
    rw [hindex.lookup_of_mem hk, Option.map_some, hposition _ hlt]
  have hmem : ∀ k p, (index.lookup k).map toPosition = some p →
      k ∈ kept.map key ∧ (kept.map key).idxOf k = p := by
    intro k p hp
    by_cases hk : k ∈ kept.map key
    · rw [hfound k hk] at hp
      exact ⟨hk, Option.some.inj hp⟩
    · rw [hindex.lookup_eq_none_iff.mpr hk] at hp
      cases hp
  refine ⟨fun k => ?_, fun k p hp => ?_, fun k k' p hp hp' => ?_, fun p hp => ?_, fun k => ?_⟩
  · rw [← h.keys, Option.isSome_map, ← not_iff_not, ← hindex.lookup_eq_none_iff]
    simp
  · obtain ⟨hk, rfl⟩ := hmem k p hp
    simpa using List.idxOf_lt_length_iff.mpr hk
  · obtain ⟨hk, hidx⟩ := hmem k p hp
    obtain ⟨hk', hidx'⟩ := hmem k' p hp'
    exact (List.idxOf_inj hk).mp (hidx.trans hidx'.symm)
  · have hp' : p < (kept.map key).length := by simpa using hp
    refine ⟨(kept.map key)[p], ?_⟩
    rw [hfound _ (List.getElem_mem hp'), h.nodup.idxOf_getElem]
  · by_cases hk : k ∈ kept.map key
    · rw [hfound k hk, ← h.getElem?_idxOf]
      rfl
    · rw [hindex.lookup_eq_none_iff.mpr hk, ← h.getElem?_idxOf, List.idxOf_eq_length hk,
        List.length_map, List.getElem?_eq_none le_rfl]
      rfl

end SnappCollector.Data
