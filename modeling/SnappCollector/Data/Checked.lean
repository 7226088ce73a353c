import SnappCollector.Data.Course

/-!
# Calls that can go wrong

A call works on a state.  It goes wrong where it does what must never be done, and otherwise
leaves a state and a course.  `Returns` and `Runs` are the two judgments: what a call that
comes back leaves, and what a call with a known course leaves.
-/

namespace SnappCollector.Data

/-- Nothing where the call goes wrong. -/
def Checked (σ ε α : Type) : Type := σ → Option (σ × Course ε α)

namespace Checked

variable {σ ε α β : Type}

def andThen (f : α → Checked σ ε β) : σ × Course ε α → Option (σ × Course ε β)
  | (s, .returned a) => f a s
  | (s, .failed) => some (s, .failed)
  | (s, .died e) => some (s, .died e)
  | (s, .pending) => some (s, .pending)

instance : Monad (Checked σ ε) where
  pure a := fun s => some (s, .returned a)
  bind x f := fun s => (x s).bind (andThen f)

theorem bind_apply (x : Checked σ ε α) (f : α → Checked σ ε β) (s : σ) :
    (x >>= f) s = (x s).bind (andThen f) := rfl

theorem bind_andThen {γ : Type} (f : α → Checked σ ε β) (g : β → Checked σ ε γ)
    (left : σ × Course ε α) :
    (andThen f left).bind (andThen g) = andThen (fun a => f a >>= g) left := by
  obtain ⟨s, c⟩ := left
  cases c <;> rfl

instance : LawfulMonad (Checked σ ε) :=
  LawfulMonad.mk' (Checked σ ε)
    (fun x => by
      funext s
      change (x s).bind (andThen fun a => Pure.pure (id a)) = x s
      cases x s with
      | none => rfl
      | some left =>
          obtain ⟨s', c⟩ := left
          cases c <;> rfl)
    (fun _ _ => rfl)
    (fun x f g => by
      funext s
      rw [bind_apply, bind_apply, bind_apply, Option.bind_assoc]
      exact congrArg _ (funext fun left => bind_andThen f g left))

def lift (c : Course ε α) : Checked σ ε α := fun s => some (s, c)

/-- A call that comes back wherever it does not go wrong. -/
def access (f : σ → Option (σ × α)) : Checked σ ε α :=
  fun s => (f s).map fun (s', a) => (s', .returned a)

def check (condition : Bool) : Checked σ ε Unit :=
  access fun s => if condition then some (s, ()) else none

/-- From every state with `P` the call comes back, and `R` holds of what it returns. -/
def Returns (P : σ → Prop) (x : Checked σ ε α) (R : α → σ → Prop) : Prop :=
  ∀ s, P s → ∃ s' a, x s = some (s', .returned a) ∧ R a s'

/-- From every state with `P` the call has the course `c`; it leaves `R` where it returns, and
`S` where it is still running. -/
def Runs (P : σ → Prop) (x : Checked σ ε α) (c : Course ε α) (R S : σ → Prop) : Prop :=
  ∀ s, P s → ∃ s', x s = some (s', c) ∧ ((∃ a, c = .returned a) → R s') ∧ (c = .pending → S s')

variable {P P' R S : σ → Prop} {T : α → σ → Prop} {x : Checked σ ε α} {f : α → Checked σ ε β}

theorem Returns.pure (a : α) (h : ∀ s, P s → T a s) : Returns P (Pure.pure a : Checked σ ε α) T :=
  fun s hs => ⟨s, a, rfl, h s hs⟩

theorem Returns.conseq {T' : α → σ → Prop} (hx : Returns P x T) (hpre : ∀ s, P' s → P s)
    (hpost : ∀ a s, T a s → T' a s) : Returns P' x T' := by
  intro s hs
  obtain ⟨s', a, hrun, ha⟩ := hx s (hpre s hs)
  exact ⟨s', a, hrun, hpost a s' ha⟩

theorem Returns.bind {U : β → σ → Prop} (hx : Returns P x T) (hf : ∀ a, Returns (T a) (f a) U) :
    Returns P (x >>= f) U := by
  intro s hs
  obtain ⟨s₁, a, hrun, ha⟩ := hx s hs
  obtain ⟨s', b, hrest, hb⟩ := hf a s₁ ha
  refine ⟨s', b, ?_, hb⟩
  rw [bind_apply, hrun]
  exact hrest

theorem Returns.access {g : σ → Option (σ × α)}
    (h : ∀ s, P s → ∃ s' a, g s = some (s', a) ∧ T a s') :
    Returns P (Checked.access g : Checked σ ε α) T := by
  intro s hs
  obtain ⟨s', a, hrun, ha⟩ := h s hs
  exact ⟨s', a, by rw [Checked.access, hrun]; rfl, ha⟩

theorem Returns.check {condition : Bool} (h : condition = true) :
    Returns P (Checked.check condition : Checked σ ε Unit) fun _ => P := by
  apply Returns.access
  intro s hs
  exact ⟨s, (), by rw [if_pos h], hs⟩

theorem Runs.lift {c : Course ε α} (hpending : ∀ s, P s → c = .pending → S s) :
    Runs P (Checked.lift c) c P S :=
  fun s hs => ⟨s, rfl, fun _ => hs, hpending s hs⟩

theorem Runs.pending : Runs P (Checked.lift .pending : Checked σ ε α) .pending R P :=
  fun s hs => ⟨s, rfl, by simp, fun _ => hs⟩

theorem Runs.pure (a : α) : Runs P (Pure.pure a : Checked σ ε α) (.returned a) P S :=
  fun s hs => ⟨s, rfl, fun _ => hs, fun h => by cases h⟩

theorem Runs.conseq {c : Course ε α} {R' S' : σ → Prop} (hx : Runs P x c R S)
    (hpre : ∀ s, P' s → P s) (hpost : ∀ s, R s → R' s) (hpending : ∀ s, S s → S' s) :
    Runs P' x c R' S' := by
  intro s hs
  obtain ⟨s', hrun, hreturned, hstill⟩ := hx s (hpre s hs)
  exact ⟨s', hrun, fun h => hpost s' (hreturned h), fun h => hpending s' (hstill h)⟩

/-- A call that always comes back, and the rest, whose course does not depend on its value. -/
theorem Returns.bind_runs {c : Course ε β} (hx : Returns P x T)
    (hf : ∀ a, Runs (T a) (f a) c R S) : Runs P (x >>= f) c R S := by
  intro s hs
  obtain ⟨s₁, a, hrun, ha⟩ := hx s hs
  obtain ⟨s', hrest, hpost⟩ := hf a s₁ ha
  refine ⟨s', ?_, hpost⟩
  rw [bind_apply, hrun]
  exact hrest

theorem Runs.bind {c : Course ε α} {d : α → Course ε β} {R' : σ → Prop} (hx : Runs P x c R' S)
    (hf : ∀ a, c = .returned a → Runs R' (f a) (d a) R S) : Runs P (x >>= f) (c >>= d) R S := by
  intro s hs
  obtain ⟨s₁, hrun, hreturned, hpending⟩ := hx s hs
  rw [bind_apply, hrun, Option.bind_some]
  cases c with
  | returned a => exact hf a rfl s₁ (hreturned ⟨a, rfl⟩)
  | failed => exact ⟨s₁, rfl, by simp, by simp⟩
  | died e => exact ⟨s₁, rfl, by simp, by simp⟩
  | pending => exact ⟨s₁, rfl, by simp, fun _ => hpending rfl⟩

theorem Runs.mapM {ι : Type} {g : ι → Checked σ ε α} {c : ι → Course ε α} {xs : List ι}
    (hround : ∀ x ∈ xs, Runs P (g x) (c x) P S) : Runs P (xs.mapM g) (xs.mapM c) P S := by
  induction xs with
  | nil => exact .pure []
  | cons x xs ih =>
      rw [List.mapM_cons, List.mapM_cons]
      refine (hround x (List.mem_cons_self ..)).bind fun y _ => ?_
      exact (ih fun z hz => hround z (List.mem_cons_of_mem _ hz)).bind fun ys _ => .pure (y :: ys)

end Checked

end SnappCollector.Data
