import SnappCollector.Machine.Pool

/-!
# Locks for reading and writing

Any number of threads of a pool read under the lock at once, or one of them writes.  Where a
thread is in its code says whether it reads or writes; the lock counts the readers and names the
writer.
-/

namespace SnappCollector.Machine

variable {ι α : Type*}

structure RwLock (ι : Type*) where
  readers : Nat
  writer : Option ι
deriving DecidableEq

def RwLock.free : RwLock ι := ⟨0, none⟩

structure RwGuards [Fintype ι] (lock : RwLock ι) (reading writing : α → Bool) (pool : ι → α) :
    Prop where
  readers : lock.readers = numAt reading pool
  writer : ∀ i, writing (pool i) = true ↔ lock.writer = some i
  exclusive : lock.writer ≠ none → lock.readers = 0

namespace RwGuards

variable [Fintype ι] {lock : RwLock ι} {reading writing : α → Bool} {pool : ι → α} {i j : ι}
  {x : α}

theorem init (hreading : ∀ i, reading (pool i) = false) (hwriting : ∀ i, writing (pool i) = false) :
    RwGuards .free reading writing pool where
  readers := (numAt_eq_zero_iff.mpr hreading).symm
  writer i := by simp [hwriting, RwLock.free]
  exclusive _ := rfl

theorem not_reading (h : RwGuards lock reading writing pool) (hi : writing (pool i) = true) (j : ι) :
    reading (pool j) = false := by
  have hnone : lock.readers = 0 := h.exclusive (by simp [(h.writer i).mp hi])
  rw [h.readers] at hnone
  exact numAt_eq_zero_iff.mp hnone j

theorem writer_eq_none (h : RwGuards lock reading writing pool) (hi : reading (pool i) = true) :
    lock.writer = none := by
  by_contra hwriter
  have hpos := numAt_pos (p := reading) hi
  have hnone := h.exclusive hwriter
  rw [h.readers] at hnone
  omega

theorem eq_of_writing (h : RwGuards lock reading writing pool) (hi : writing (pool i) = true)
    (hj : writing (pool j) = true) : i = j := by
  have howner := (h.writer i).mp hi
  rw [(h.writer j).mp hj] at howner
  exact (Option.some.inj howner).symm

variable [DecidableEq ι]

theorem move (h : RwGuards lock reading writing pool) (hreading : reading x = reading (pool i))
    (hwriting : writing x = writing (pool i)) :
    RwGuards lock reading writing (Function.update pool i x) where
  readers := by rw [h.readers, numAt_update_of_eq hreading]
  writer j := by rw [update_congr writing hwriting j, h.writer]
  exclusive := h.exclusive

theorem rdlock (h : RwGuards lock reading writing pool) (hfree : lock.writer = none)
    (hbefore : reading (pool i) = false) (hafter : reading x = true)
    (hwriting : writing x = writing (pool i)) :
    RwGuards { lock with readers := lock.readers + 1 } reading writing
      (Function.update pool i x) where
  readers := by
    have hcount := numAt_update reading pool i x
    have hreaders := h.readers
    simp only [hbefore, hafter, Bool.toNat_true, Bool.toNat_false] at hcount
    simp only
    omega
  writer j := by rw [update_congr writing hwriting j, h.writer]
  exclusive hwriter := absurd hfree hwriter

theorem rdunlock (h : RwGuards lock reading writing pool) (hbefore : reading (pool i) = true)
    (hafter : reading x = false) (hwriting : writing x = writing (pool i)) :
    RwGuards { lock with readers := lock.readers - 1 } reading writing
      (Function.update pool i x) where
  readers := by
    have hcount := numAt_update reading pool i x
    have hreaders := h.readers
    simp only [hbefore, hafter, Bool.toNat_true, Bool.toNat_false] at hcount
    simp only
    omega
  writer j := by rw [update_congr writing hwriting j, h.writer]
  exclusive hwriter := absurd (h.writer_eq_none hbefore) hwriter

theorem wrlock (h : RwGuards lock reading writing pool) (hfree : lock.writer = none)
    (hreaders : lock.readers = 0) (hafter : writing x = true)
    (hreading : reading x = reading (pool i)) :
    RwGuards { lock with writer := some i } reading writing (Function.update pool i x) where
  readers := by
    rw [numAt_update_of_eq hreading]
    exact h.readers
  writer j := by
    by_cases hj : j = i
    · simp [hj, hafter]
    · have hnot : ¬writing (pool j) = true := by simp [h.writer, hfree]
      have hne : i ≠ j := Ne.symm hj
      simp [Function.update_of_ne hj, hnot, hne]
  exclusive _ := hreaders

theorem wrunlock (h : RwGuards lock reading writing pool) (hbefore : writing (pool i) = true)
    (hafter : writing x = false) (hreading : reading x = reading (pool i)) :
    RwGuards { lock with writer := none } reading writing (Function.update pool i x) where
  readers := by
    rw [numAt_update_of_eq hreading]
    exact h.readers
  writer j := by
    by_cases hj : j = i
    · simp [hj, hafter]
    · have hnot : ¬writing (pool j) = true := fun hwriting => hj (h.eq_of_writing hwriting hbefore)
      simp [Function.update_of_ne hj, hnot]
  exclusive hwriter := absurd rfl hwriter

end RwGuards

end SnappCollector.Machine
