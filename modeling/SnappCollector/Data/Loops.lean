import Mathlib.Data.List.Forall2

/-!
# Loops that carry a state

A loop that rewrites the elements of a vector one by one and may stop is `mapM` in
`StateT σ Option`; a loop that only updates a state and may fail is `foldlM` in
`Except ε`.  For each the rule that turns a fact about one round into one about
the loop.
-/

namespace SnappCollector.Data

section Rewriting

variable {α β σ : Type} {f : α → StateT σ Option β}

/-- What every round keeps, the loop keeps; and what every round establishes for
its element holds for all of them. -/
theorem mapM_run (Inv : σ → Prop) (R : α → β → Prop) {xs : List α} {ys : List β} {s s' : σ}
    (hstart : Inv s) (hrun : (xs.mapM f).run s = some (ys, s'))
    (hround : ∀ x ∈ xs, ∀ s y s', Inv s → (f x).run s = some (y, s') → Inv s' ∧ R x y) :
    Inv s' ∧ List.Forall₂ R xs ys := by
  induction xs generalizing s ys with
  | nil =>
      simp only [List.mapM_nil, StateT.run_pure] at hrun
      cases hrun
      exact ⟨hstart, .nil⟩
  | cons x xs ih =>
      simp only [List.mapM_cons, StateT.run_bind, StateT.run_pure] at hrun
      obtain ⟨⟨y, s₁⟩, hx, hrest⟩ := Option.bind_eq_some_iff.mp hrun
      obtain ⟨⟨ys', s₂⟩, hxs, hlast⟩ := Option.bind_eq_some_iff.mp hrest
      cases hlast
      obtain ⟨hinv, hy⟩ := hround x (by simp) s y s₁ hstart hx
      obtain ⟨hinv', hys⟩ := ih hinv hxs fun x hx => hround x (by simp [hx])
      exact ⟨hinv', .cons hy hys⟩

theorem mapM_run_isSome (Inv : σ → Prop) {xs : List α} {s : σ} (hstart : Inv s)
    (hround : ∀ x ∈ xs, ∀ s, Inv s → ∃ y s', (f x).run s = some (y, s') ∧ Inv s') :
    ∃ ys s', (xs.mapM f).run s = some (ys, s') ∧ Inv s' := by
  induction xs generalizing s with
  | nil => exact ⟨[], s, rfl, hstart⟩
  | cons x xs ih =>
      obtain ⟨y, s₁, hx, hinv⟩ := hround x (by simp) s hstart
      obtain ⟨ys, s₂, hxs, hinv'⟩ := ih hinv fun x hx => hround x (by simp [hx])
      refine ⟨y :: ys, s₂, ?_, hinv'⟩
      simp only [List.mapM_cons, StateT.run_bind, StateT.run_pure]
      rw [hx]
      simp only [Option.bind_eq_bind, Option.bind_some]
      rw [hxs]
      rfl

end Rewriting

theorem getElem?_of_forall₂ {α β : Type*} {R : α → β → Prop} {xs : List α} {ys : List β}
    (h : List.Forall₂ R xs ys) {i : Nat} {x : α} (hx : xs[i]? = some x) :
    ∃ y, ys[i]? = some y ∧ R x y := by
  induction h generalizing i with
  | nil => simp at hx
  | @cons x₀ y₀ xs ys hrel _ ih =>
      cases i with
      | zero =>
          simp only [List.getElem?_cons_zero, Option.some.injEq] at hx
          exact ⟨y₀, rfl, hx ▸ hrel⟩
      | succ i => exact ih (by simpa using hx)

@[simp] theorem ok_bind {α β ε : Type} (x : α) (f : α → Except ε β) :
    (Except.ok x >>= f) = f x := rfl

theorem bind_eq_ok {α β ε : Type} {x : Except ε α} {f : α → Except ε β} {y : β} :
    (x >>= f) = .ok y ↔ ∃ a, x = .ok a ∧ f a = .ok y := by
  cases x with
  | error e => simp [bind, Except.bind]
  | ok a => simp

section Updating

variable {α σ ε : Type} {f : σ → α → Except ε σ} {Inv : List α → σ → Prop}

/-- If every round succeeds and carries the invariant over to one element more,
then so does the loop over any next elements. -/
theorem foldlM_ok {all done xs : List α} {s : σ} (hstart : Inv done s)
    (hall : done ++ xs <+: all)
    (hround : ∀ done x s, done ++ [x] <+: all → Inv done s →
      ∃ s', f s x = .ok s' ∧ Inv (done ++ [x]) s') :
    ∃ s', xs.foldlM f s = .ok s' ∧ Inv (done ++ xs) s' := by
  induction xs generalizing done s with
  | nil => exact ⟨s, rfl, by simpa using hstart⟩
  | cons x xs ih =>
      have hsplit : done ++ x :: xs = done ++ [x] ++ xs := by simp
      rw [hsplit] at hall ⊢
      obtain ⟨s₁, hx, hinv⟩ := hround done x s ((List.prefix_append _ _).trans hall) hstart
      obtain ⟨s', hxs, hinv'⟩ := ih hinv hall
      refine ⟨s', ?_, hinv'⟩
      rw [List.foldlM_cons, hx]
      exact hxs

/-- What every round that succeeds carries over to one element more, a loop that succeeds
carries over to all of them. -/
theorem foldlM_of_ok {all done xs : List α} {s s' : σ} (hstart : Inv done s)
    (hall : done ++ xs <+: all) (hrun : xs.foldlM f s = .ok s')
    (hround : ∀ done x s s', done ++ [x] <+: all → Inv done s → f s x = .ok s' →
      Inv (done ++ [x]) s') : Inv (done ++ xs) s' := by
  induction xs generalizing done s with
  | nil =>
      cases hrun
      simpa using hstart
  | cons x xs ih =>
      have hsplit : done ++ x :: xs = done ++ [x] ++ xs := by simp
      rw [hsplit] at hall ⊢
      rw [List.foldlM_cons, bind_eq_ok] at hrun
      obtain ⟨s₁, hx, hxs⟩ := hrun
      exact ih (hround done x s s₁ ((List.prefix_append _ _).trans hall) hstart hx) hall hxs

end Updating

end SnappCollector.Data
