import Mathlib.Data.List.Forall2

/-!
# Calls that may not come back

A call returns a value, reports a failure to its caller, ends the whole process, or has
not ended yet.  In a sequence of calls only a value lets the next call start, so the
process survives the sequence if it survives every call that is reached.
-/

namespace SnappCollector.Data

/-- What a call has come to; `ε` says how it can end the process. -/
inductive Course (ε α : Type) where
  | returned (a : α)
  | failed
  | died (e : ε)
  | pending
deriving DecidableEq

namespace Course

variable {ε α β σ : Type}

def bind : Course ε α → (α → Course ε β) → Course ε β
  | .returned a, f => f a
  | .failed, _ => .failed
  | .died e, _ => .died e
  | .pending, _ => .pending

instance : Monad (Course ε) where
  pure := .returned
  bind := bind

@[simp] theorem pure_eq (a : α) : (pure a : Course ε α) = .returned a := rfl

@[simp] theorem returned_bind (a : α) (f : α → Course ε β) : (returned a >>= f) = f a := rfl

@[simp] theorem failed_bind (f : α → Course ε β) : (failed >>= f) = failed := rfl

@[simp] theorem died_bind (e : ε) (f : α → Course ε β) : (died e >>= f) = died e := rfl

@[simp] theorem pending_bind (f : α → Course ε β) : (pending >>= f) = pending := rfl

instance : LawfulMonad (Course ε) :=
  LawfulMonad.mk' (Course ε) (fun x => by cases x <;> rfl) (fun _ _ => rfl)
    (fun x _ _ => by cases x <;> rfl)

theorem bind_eq_returned {x : Course ε α} {f : α → Course ε β} {b : β} :
    (x >>= f) = .returned b ↔ ∃ a, x = .returned a ∧ f a = .returned b := by
  cases x <;> simp

def Survives (x : Course ε α) : Prop := ∀ e, x ≠ .died e

@[simp] theorem survives_returned (a : α) : Survives (returned a : Course ε α) := nofun

@[simp] theorem survives_failed : Survives (failed : Course ε α) := nofun

@[simp] theorem survives_pending : Survives (pending : Course ε α) := nofun

@[simp] theorem not_survives_died (e : ε) : ¬Survives (died e : Course ε α) := fun h => h e rfl

theorem survives_bind {x : Course ε α} {f : α → Course ε β} :
    Survives (x >>= f) ↔ Survives x ∧ ∀ a, x = .returned a → Survives (f a) := by
  cases x <;> simp

/-- A loop survives if it survives every round that it comes to. -/
theorem survives_foldlM_iff {f : σ → α → Course ε σ} {xs : List α} {s : σ} :
    Survives (xs.foldlM f s) ↔ ∀ before x rest s', xs = before ++ x :: rest →
      before.foldlM f s = .returned s' → Survives (f s' x) := by
  induction xs generalizing s with
  | nil => simp
  | cons x xs ih =>
      rw [List.foldlM_cons, survives_bind]
      constructor
      · rintro ⟨hx, hrest⟩ before y rest s' hsplit hrun
        cases before with
        | nil =>
            cases hsplit
            cases hrun
            exact hx
        | cons z before =>
            cases hsplit
            rw [List.foldlM_cons, bind_eq_returned] at hrun
            obtain ⟨s₁, hz, hrun⟩ := hrun
            exact ih.mp (hrest s₁ hz) before y rest s' rfl hrun
      · intro hall
        refine ⟨hall [] x xs s rfl rfl, fun s₁ hx => ih.mpr ?_⟩
        intro before y rest s' hsplit hrun
        apply hall (x :: before) y rest s' (by rw [hsplit]; rfl)
        rw [List.foldlM_cons, hx]
        exact hrun

theorem foldlM_returned {f : σ → α → Course ε σ} (Inv : σ → Prop) {xs : List α} {s s' : σ}
    (hstart : Inv s) (hrun : xs.foldlM f s = .returned s')
    (hround : ∀ x ∈ xs, ∀ s s', Inv s → f s x = .returned s' → Inv s') : Inv s' := by
  induction xs generalizing s with
  | nil =>
      cases hrun
      exact hstart
  | cons x xs ih =>
      rw [List.foldlM_cons, bind_eq_returned] at hrun
      obtain ⟨s₁, hx, hrest⟩ := hrun
      have hinv : Inv s₁ := hround x (List.mem_cons_self ..) s s₁ hstart hx
      exact ih hinv hrest fun y hy => hround y (List.mem_cons_of_mem _ hy)

theorem survives_mapM {f : α → Course ε β} {xs : List α} (hround : ∀ x ∈ xs, Survives (f x)) :
    Survives (xs.mapM f) := by
  induction xs with
  | nil => exact survives_returned []
  | cons x xs ih =>
      rw [List.mapM_cons, survives_bind]
      refine ⟨hround x (List.mem_cons_self ..), fun y _ => ?_⟩
      rw [survives_bind]
      exact ⟨ih fun z hz => hround z (List.mem_cons_of_mem _ hz), fun ys _ => survives_returned _⟩

theorem mapM_returned {f : α → Course ε β} {xs : List α} {ys : List β}
    (hrun : xs.mapM f = .returned ys) : List.Forall₂ (fun x y => f x = .returned y) xs ys := by
  induction xs generalizing ys with
  | nil =>
      cases hrun
      exact .nil
  | cons x xs ih =>
      rw [List.mapM_cons, bind_eq_returned] at hrun
      obtain ⟨y, hx, hrest⟩ := hrun
      rw [bind_eq_returned] at hrest
      obtain ⟨ys', hxs, hlast⟩ := hrest
      cases hlast
      exact .cons hx (ih hxs)

theorem exists_of_mapM_returned {f : α → Course ε β} {xs : List α} {ys : List β}
    (hrun : xs.mapM f = .returned ys) {y : β} (hy : y ∈ ys) : ∃ x ∈ xs, f x = .returned y := by
  have hrounds := mapM_returned hrun
  clear hrun
  induction hrounds with
  | nil => cases hy
  | cons hx _ ih =>
      obtain rfl | hy := List.mem_cons.mp hy
      · exact ⟨_, List.mem_cons_self .., hx⟩
      · obtain ⟨x, hmem, hx⟩ := ih hy
        exact ⟨x, List.mem_cons_of_mem _ hmem, hx⟩

/-! ## Calls that run at the same time -/

def both : Course ε α → Course ε β → Course ε (α × β)
  | .died e, _ => .died e
  | _, .died e => .died e
  | .pending, _ => .pending
  | _, .pending => .pending
  | .failed, _ => .failed
  | _, .failed => .failed
  | .returned a, .returned b => .returned (a, b)

theorem survives_both {x : Course ε α} {y : Course ε β} :
    Survives (both x y) ↔ Survives x ∧ Survives y := by
  cases x <;> cases y <;> simp [both]

def all : List (Course ε α) → Course ε (List α)
  | [] => .returned []
  | x :: xs => do
      let (a, as) ← both x (all xs)
      return a :: as

theorem survives_all {xs : List (Course ε α)} : Survives (all xs) ↔ ∀ x ∈ xs, Survives x := by
  induction xs with
  | nil => simp [all]
  | cons x xs ih => simp [all, survives_bind, survives_both, ih]

/-! ## Calls that either return or end the process -/

/-- The call returns under a known condition, and ends the process otherwise. -/
def Decided (x : Course ε α) (condition : Bool) : Prop :=
  if condition then ∃ a, x = .returned a else ∃ e, x = .died e

namespace Decided

variable {x : Course ε α} {b c : Bool}

theorem of_returned (a : α) : Decided (returned a : Course ε α) true := ⟨a, rfl⟩

theorem returns (h : Decided x true) : ∃ a, x = .returned a := h

theorem ne_pending (h : Decided x b) : x ≠ .pending := by
  cases b with
  | true =>
      obtain ⟨a, rfl⟩ := h
      simp
  | false =>
      obtain ⟨e, rfl⟩ := h
      simp

theorem survives_iff (h : Decided x b) : x.Survives ↔ b = true := by
  cases b with
  | true =>
      obtain ⟨a, rfl⟩ := h
      simp
  | false =>
      obtain ⟨e, rfl⟩ := h
      simp

theorem bind {f : α → Course ε β} (hx : Decided x b) (hf : ∀ a, Decided (f a) c) :
    Decided (x >>= f) (b && c) := by
  cases b with
  | true =>
      obtain ⟨a, rfl⟩ := hx
      exact hf a
  | false =>
      obtain ⟨e, rfl⟩ := hx
      exact ⟨e, rfl⟩

/-- A call behind which nothing more can happen. -/
theorem bind_returned {g : α → β} (hx : Decided x b) :
    Decided (x >>= fun a => .returned (g a)) b := by
  have h := hx.bind fun a => of_returned (ε := ε) (g a)
  rwa [Bool.and_true] at h

theorem foldlM {f : σ → α → Course ε σ} {p : α → Bool} (hround : ∀ s x, Decided (f s x) (p x))
    (xs : List α) (s : σ) : Decided (xs.foldlM f s) (xs.all p) := by
  induction xs generalizing s with
  | nil => exact of_returned s
  | cons x xs ih =>
      rw [List.foldlM_cons, List.all_cons]
      exact (hround s x).bind ih

theorem mapM {f : α → Course ε β} {p : α → Bool} (hround : ∀ x, Decided (f x) (p x))
    (xs : List α) : Decided (xs.mapM f) (xs.all p) := by
  induction xs with
  | nil => exact of_returned []
  | cons x xs ih =>
      rw [List.mapM_cons, List.all_cons]
      exact (hround x).bind fun _ => ih.bind_returned

theorem forM {f : α → Course ε PUnit} {p : α → Bool} (hround : ∀ x, Decided (f x) (p x))
    (xs : List α) : Decided (xs.forM f) (xs.all p) := by
  induction xs with
  | nil => exact of_returned PUnit.unit
  | cons x xs ih =>
      rw [List.all_cons]
      exact (hround x).bind fun _ => ih

end Decided

end Course

end SnappCollector.Data
