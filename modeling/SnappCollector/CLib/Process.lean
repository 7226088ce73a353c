import SnappCollector.Data.Course

/-!
# The end of a process

The ways a C++ program can end in the middle of a call, and the checks that decide.

Three functions end without their `return`: `calculate_new_stats`, `list_drivers` and
`SQL_Collection_Class::initialize`.  That is undefined in C++.  It is assumed that they come back
with some value, which none of their callers looks at.
-/

namespace SnappCollector.CLib

open Data

inductive Death where
  | exit
  | abort
  /-- an exception that nobody catches -/
  | terminate
  /-- a null pointer, a write behind a buffer, a division by zero, an exhausted stack -/
  | fault
deriving DecidableEq

def asserted {α : Type} : Option α → Course Death α
  | none => .died .abort
  | some a => .returned a

/-- A use that nothing checks. -/
def dereferenced {α : Type} : Option α → Course Death α
  | none => .died .fault
  | some a => .returned a

def assert (condition : Bool) : Course Death Unit :=
  if condition then .returned () else .died .abort

section

variable {α : Type} {x : Option α} {a : α} {condition : Bool}

theorem decided_asserted (x : Option α) : (asserted x).Decided x.isSome := by
  cases x with
  | none => exact ⟨.abort, rfl⟩
  | some a => exact ⟨a, rfl⟩

theorem decided_dereferenced (x : Option α) : (dereferenced x).Decided x.isSome := by
  cases x with
  | none => exact ⟨.fault, rfl⟩
  | some a => exact ⟨a, rfl⟩

theorem decided_assert (condition : Bool) : (assert condition).Decided condition := by
  cases condition with
  | false => exact ⟨.abort, rfl⟩
  | true => exact ⟨(), rfl⟩

@[simp] theorem survives_asserted : (asserted x).Survives ↔ x.isSome = true := by
  cases x <;> simp [asserted]

@[simp] theorem survives_dereferenced : (dereferenced x).Survives ↔ x.isSome = true := by
  cases x <;> simp [dereferenced]

@[simp] theorem survives_assert : (assert condition).Survives ↔ condition = true := by
  cases condition <;> simp [assert]

@[simp] theorem asserted_eq_returned : asserted x = .returned a ↔ x = some a := by
  cases x <;> simp [asserted]

@[simp] theorem dereferenced_eq_returned : dereferenced x = .returned a ↔ x = some a := by
  cases x <;> simp [dereferenced]

@[simp] theorem assert_eq_returned {u : Unit} :
    assert condition = .returned u ↔ condition = true := by
  cases condition <;> simp [assert]

end

end SnappCollector.CLib
