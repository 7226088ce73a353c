import Mathlib.Data.List.Basic

/-!
# Blocks of memory

A block is known by the number of its allocation, and it is gone once it has been freed: reading
or freeing it again is not possible.  `Owns` says which blocks a program has to free still.
-/

namespace SnappCollector.Machine

variable {β : Type*}

/-- The blocks in the order in which they were allocated, `none` where one was freed. -/
structure Heap (β : Type*) where
  blocks : List (Option β)

namespace Heap

variable {h h' : Heap β} {b : β} {id id' : Nat} {ids : List Nat}

def empty : Heap β := ⟨[]⟩

def get? (h : Heap β) (id : Nat) : Option β := h.blocks[id]?.join

def alloc (h : Heap β) (b : β) : Heap β := ⟨h.blocks ++ [some b]⟩

def next (h : Heap β) : Nat := h.blocks.length

def free? (h : Heap β) (id : Nat) : Option (Heap β) :=
  (h.get? id).map fun _ => ⟨h.blocks.set id none⟩

@[simp] theorem get?_alloc_next (h : Heap β) (b : β) : (h.alloc b).get? h.next = some b := by
  simp [get?, alloc, next]

theorem get?_next (h : Heap β) : h.get? h.next = none := by
  simp [get?, next]

theorem get?_alloc_of_ne (h : Heap β) (b : β) (hne : id ≠ h.next) :
    (h.alloc b).get? id = h.get? id := by
  simp only [next] at hne
  simp only [get?, alloc]
  rcases Nat.lt_or_gt_of_ne hne with hlt | hgt
  · rw [List.getElem?_append_left hlt]
  · rw [List.getElem?_append_right (Nat.le_of_lt hgt), List.getElem?_eq_none (by simp; omega),
      List.getElem?_eq_none (Nat.le_of_lt hgt)]

theorem get?_alloc_of_some (h : Heap β) {c : β} (b : β) (hid : h.get? id = some c) :
    (h.alloc b).get? id = some c := by
  have hne : id ≠ h.next := by
    rintro rfl
    simp [get?_next] at hid
  rw [get?_alloc_of_ne h b hne, hid]

theorem get?_of_free (hfree : h.free? id = some h') : h'.get? id = none := by
  obtain ⟨b, -, rfl⟩ := Option.map_eq_some_iff.mp hfree
  simp only [get?, List.getElem?_set_self']
  cases h.blocks[id]? <;> rfl

theorem get?_of_free_of_ne (hfree : h.free? id = some h') (hne : id' ≠ id) :
    h'.get? id' = h.get? id' := by
  obtain ⟨b, -, rfl⟩ := Option.map_eq_some_iff.mp hfree
  simp [get?, List.getElem?_set_ne (Ne.symm hne)]

/-- The blocks that are not freed are these, each once. -/
structure Owns (h : Heap β) (ids : List Nat) : Prop where
  nodup : ids.Nodup
  mem_iff : ∀ id, id ∈ ids ↔ (h.get? id).isSome = true

namespace Owns

theorem empty : Owns (Heap.empty : Heap β) [] := ⟨.nil, by simp [get?, Heap.empty]⟩

theorem get? (ho : Owns h ids) (hid : id ∈ ids) : ∃ b, h.get? id = some b :=
  Option.isSome_iff_exists.mp ((ho.mem_iff id).mp hid)

theorem alloc (ho : Owns h ids) (b : β) : Owns (h.alloc b) (ids ++ [h.next]) where
  nodup := by
    have hfresh : h.next ∉ ids := by simp [ho.mem_iff, get?_next]
    rw [List.nodup_append]
    refine ⟨ho.nodup, by simp, fun id hid id' hid' heq => hfresh ?_⟩
    rwa [← List.mem_singleton.mp hid', ← heq]
  mem_iff id := by
    by_cases hid : id = h.next
    · simp [hid]
    · simp [get?_alloc_of_ne h b hid, hid, ho.mem_iff]

theorem free (ho : Owns h (id :: ids)) : ∃ h', h.free? id = some h' ∧ Owns h' ids := by
  obtain ⟨b, hb⟩ := ho.get? List.mem_cons_self
  have hfree : h.free? id = some ⟨h.blocks.set id none⟩ := by rw [free?, hb, Option.map_some]
  obtain ⟨hnot, hnodup⟩ := List.nodup_cons.mp ho.nodup
  refine ⟨_, hfree, hnodup, fun id' => ?_⟩
  by_cases heq : id' = id
  · rw [heq, get?_of_free hfree]
    simp [hnot]
  · rw [get?_of_free_of_ne hfree heq, ← ho.mem_iff]
    simp [heq]

theorem of_free (ho : Owns h (id :: ids)) (hfree : h.free? id = some h') : Owns h' ids := by
  obtain ⟨h₁, hfree₁, ho₁⟩ := ho.free
  rw [hfree] at hfree₁
  cases hfree₁
  exact ho₁

theorem free_ne_none (ho : Owns h (id :: ids)) : h.free? id ≠ none := by
  obtain ⟨h', hfree, -⟩ := ho.free
  simp [hfree]

end Owns

/-! ## Lookups -/

def write? (h : Heap β) (id : Nat) (b : β) : Option (Heap β) :=
  (h.get? id).map fun _ => ⟨h.blocks.set id (some b)⟩

theorem get?_alloc (h : Heap β) (b : β) :
    (h.alloc b).get? = Function.update h.get? h.next (some b) := by
  funext id
  by_cases hid : id = h.next
  · rw [hid, get?_alloc_next, Function.update_self]
  · rw [get?_alloc_of_ne h b hid, Function.update_of_ne hid]

theorem lt_length_of_get? (hid : h.get? id = some b) : id < h.blocks.length := by
  by_contra hge
  rw [get?, List.getElem?_eq_none (by omega)] at hid
  cases hid

theorem get?_set (hid : id < h.blocks.length) (b : Option β) :
    get? ⟨h.blocks.set id b⟩ = Function.update h.get? id b := by
  funext id'
  by_cases heq : id' = id
  · rw [heq, Function.update_self, get?, List.getElem?_set_self hid]
    rfl
  · rw [Function.update_of_ne heq, get?, List.getElem?_set_ne (Ne.symm heq)]
    rfl

theorem exists_free (hid : h.get? id = some b) :
    ∃ h', h.free? id = some h' ∧ h'.get? = Function.update h.get? id none :=
  ⟨_, by rw [free?, hid, Option.map_some], get?_set (lt_length_of_get? hid) none⟩

theorem exists_write (hid : h.get? id = some b) (c : β) :
    ∃ h', h.write? id c = some h' ∧ h'.get? = Function.update h.get? id (some c) :=
  ⟨_, by rw [write?, hid, Option.map_some], get?_set (lt_length_of_get? hid) (some c)⟩

end Heap

/-! ## Cells beside those of another memory -/

/-- The memory `now` has what `base` has, as it is there, and these cells beside it. -/
structure Adds (base : Nat → Option β) (cells : List (Nat × β)) (now : Nat → Option β) : Prop where
  nodup : (cells.map (·.1)).Nodup
  fresh : ∀ c ∈ cells, base c.1 = none
  lookup : ∀ id, now id = (cells.lookup id).or (base id)

namespace Adds

variable {base now : Nat → Option β} {cells : List (Nat × β)} {id : Nat} {b : β}

theorem refl (base : Nat → Option β) : Adds base [] base := ⟨.nil, by simp, by simp⟩

theorem same (ha : Adds base [] now) : now = base := by
  funext id
  rw [ha.lookup, List.lookup_nil, Option.none_or]

theorem read (ha : Adds base ((id, b) :: cells) now) : now id = some b := by
  rw [ha.lookup, List.lookup_cons_self, Option.some_or]

theorem lookup_eq_none (ha : Adds base ((id, b) :: cells) now) : cells.lookup id = none := by
  rw [List.lookup_eq_none_iff]
  intro c hc
  have hnodup := (List.nodup_cons.mp ha.nodup).1
  rw [bne_iff_ne]
  exact fun heq => hnodup (heq ▸ List.mem_map_of_mem (f := (·.1)) hc)

theorem alloc (ha : Adds base cells now) (hfree : now id = none) (b : β) :
    Adds base ((id, b) :: cells) (Function.update now id (some b)) := by
  have hnew := hfree
  rw [ha.lookup, Option.or_eq_none_iff, List.lookup_eq_none_iff] at hnew
  refine ⟨List.nodup_cons.mpr ⟨fun hmem => ?_, ha.nodup⟩, fun c hc => ?_, fun id' => ?_⟩
  · obtain ⟨c, hc, heq⟩ := List.mem_map.mp hmem
    have hne := hnew.1 c hc
    simp [heq] at hne
  · obtain rfl | hc := List.mem_cons.mp hc
    · exact hnew.2
    · exact ha.fresh c hc
  · by_cases hid : id' = id
    · rw [hid, Function.update_self, List.lookup_cons_self, Option.some_or]
    · rw [Function.update_of_ne hid, ha.lookup, List.lookup_cons, beq_eq_false_iff_ne.mpr hid]

theorem write (ha : Adds base ((id, b) :: cells) now) (c : β) :
    Adds base ((id, c) :: cells) (Function.update now id (some c)) := by
  refine ⟨ha.nodup, fun d hd => ?_, fun id' => ?_⟩
  · obtain rfl | hd := List.mem_cons.mp hd
    · exact ha.fresh (id, b) (List.mem_cons_self ..)
    · exact ha.fresh d (List.mem_cons_of_mem _ hd)
  · by_cases hid : id' = id
    · rw [hid, Function.update_self, List.lookup_cons_self, Option.some_or]
    · have hold := ha.lookup id'
      rw [List.lookup_cons, beq_eq_false_iff_ne.mpr hid] at hold ⊢
      rw [Function.update_of_ne hid]
      exact hold

theorem free (ha : Adds base ((id, b) :: cells) now) :
    Adds base cells (Function.update now id none) := by
  refine ⟨(List.nodup_cons.mp ha.nodup).2, ?_, fun id' => ?_⟩
  · exact fun c hc => ha.fresh c (List.mem_cons_of_mem _ hc)
  · by_cases hid : id' = id
    · rw [hid, Function.update_self, ha.lookup_eq_none, ha.fresh _ (List.mem_cons_self ..)]
      rfl
    · rw [Function.update_of_ne hid, ha.lookup, List.lookup_cons, beq_eq_false_iff_ne.mpr hid]

end Adds

end SnappCollector.Machine
