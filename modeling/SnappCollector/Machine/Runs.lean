import Mathlib.Data.List.Basic

/-!
# Runs of a transition system

A system is a partial step function: the action names who moves and how the
environment answers, and `none` means that the action is not possible.  A run is
a list of actions; a state is reached when some run ends in it.  `Reaches` also
takes a condition on the steps, for results about the runs that keep to it.
-/

namespace SnappCollector.Machine

variable {σ α : Type*} {step : σ → α → Option σ} {s₀ s s' t : σ} {a : α} {acts : List α}

/-- The state after a list of actions, if each of them is possible. -/
def run (step : σ → α → Option σ) : σ → List α → Option σ
  | s, [] => some s
  | s, a :: acts => (step s a).bind fun s' => run step s' acts

@[simp] theorem run_nil : run step s [] = some s := rfl

@[simp] theorem run_cons : run step s (a :: acts) = (step s a).bind (run step · acts) := rfl

theorem run_append (acts' : List α) :
    run step s (acts ++ acts') = (run step s acts).bind (run step · acts') := by
  induction acts generalizing s with
  | nil => rfl
  | cons a acts ih =>
      cases hstep : step s a with
      | none => simp [hstep]
      | some s₁ => simp [hstep, ih]

/-- States reached from `s₀` by steps that satisfy `ok` in the state they start in. -/
inductive Reaches (step : σ → α → Option σ) (ok : σ → α → Prop) (s₀ : σ) : σ → Prop where
  | start : Reaches step ok s₀ s₀
  | next {s s' : σ} {a : α} : Reaches step ok s₀ s → ok s a → step s a = some s' →
      Reaches step ok s₀ s'

abbrev Reachable (step : σ → α → Option σ) (s₀ s : σ) : Prop :=
  Reaches step (fun _ _ => True) s₀ s

namespace Reaches

variable {ok : σ → α → Prop}

theorem invariant {Inv : σ → Prop} (hreach : Reaches step ok s₀ s) (hstart : Inv s₀)
    (hstep : ∀ s a s', Inv s → ok s a → step s a = some s' → Inv s') : Inv s := by
  induction hreach with
  | start => exact hstart
  | next _ hok hs ih => exact hstep _ _ _ ih hok hs

theorem trans (hs : Reaches step ok s₀ s) (ht : Reaches step ok s t) :
    Reaches step ok s₀ t := by
  induction ht with
  | start => exact hs
  | next _ hok hstep ih => exact .next ih hok hstep

theorem reachable (hreach : Reaches step ok s₀ s) : Reachable step s₀ s := by
  induction hreach with
  | start => exact .start
  | next _ _ hstep ih => exact .next ih trivial hstep

/-- A run all of whose steps satisfy a decidable condition, given by evaluation. -/
theorem of_run [∀ s a, Decidable (ok s a)]
    (hrun : run (fun s a => if ok s a then step s a else none) s₀ acts = some s) :
    Reaches step ok s₀ s := by
  induction acts generalizing s₀ with
  | nil =>
      simp only [run_nil, Option.some.injEq] at hrun
      exact hrun ▸ .start
  | cons a acts ih =>
      by_cases hok : ok s₀ a
      · cases hstep : step s₀ a with
        | none => simp [hok, hstep] at hrun
        | some s₁ =>
            simp only [run_cons, hok, if_true, hstep, Option.bind_some] at hrun
            exact (Reaches.next .start hok hstep).trans (ih hrun)
      · simp [hok] at hrun

end Reaches

theorem Reachable.of_run (hrun : run step s₀ acts = some s) : Reachable step s₀ s := by
  induction acts generalizing s₀ with
  | nil =>
      simp only [run_nil, Option.some.injEq] at hrun
      exact hrun ▸ .start
  | cons a acts ih =>
      cases hstep : step s₀ a with
      | none => simp [hstep] at hrun
      | some s₁ =>
          simp only [run_cons, hstep, Option.bind_some] at hrun
          exact (Reaches.next .start trivial hstep).trans (ih hrun)

theorem Reachable.exists_run (hreach : Reachable step s₀ s) :
    ∃ acts, run step s₀ acts = some s := by
  induction hreach with
  | start => exact ⟨[], rfl⟩
  | @next s s' a _ _ hstep ih =>
      obtain ⟨acts, hacts⟩ := ih
      refine ⟨acts ++ [a], ?_⟩
      rw [run_append, hacts, Option.bind_some, run_cons, hstep]
      rfl

/-! ## A cost added up along a run -/

/-- The sum of what the steps of a run cost, each in the state it starts in. -/
def cost (step : σ → α → Option σ) (price : σ → α → Nat) : σ → List α → Nat
  | _, [] => 0
  | s, a :: acts => price s a + ((step s a).map (cost step price · acts)).getD 0

/-- A quantity that every step raises by its price grows by the cost of the run. -/
theorem run_cost (price : σ → α → Nat) (Bal : Nat → σ → Prop) {k : Nat}
    (hrun : run step s acts = some s') (hbal : Bal k s)
    (hstep : ∀ k s a s', Bal k s → step s a = some s' → Bal (k + price s a) s') :
    Bal (k + cost step price s acts) s' := by
  induction acts generalizing s k with
  | nil =>
      simp only [run_nil, Option.some.injEq] at hrun
      simpa [cost, ← hrun] using hbal
  | cons a acts ih =>
      cases hs : step s a with
      | none => simp [hs] at hrun
      | some s₁ =>
          simp only [run_cons, hs, Option.bind_some] at hrun
          have htail := ih hrun (hstep k s a s₁ hbal hs)
          simpa [cost, hs, Nat.add_assoc] using htail

/-- Every step of a run satisfies `ok` in the state it starts in. -/
def Keeps (step : σ → α → Option σ) (ok : σ → α → Prop) : σ → List α → Prop
  | _, [] => True
  | s, a :: acts => ok s a ∧ ∀ s', step s a = some s' → Keeps step ok s' acts

theorem cost_eq_zero_iff {price : σ → α → Nat} :
    cost step price s acts = 0 ↔ Keeps step (price · · = 0) s acts := by
  induction acts generalizing s with
  | nil => simp [cost, Keeps]
  | cons a acts ih =>
      cases hs : step s a with
      | none => simp [cost, Keeps, hs]
      | some s₁ => simp [cost, Keeps, hs, ih]

/-! ## What the steps of a run leave behind -/

def collect {β : Type*} (step : σ → α → Option σ) (gives : σ → α → List β) : σ → List α → List β
  | _, [] => []
  | s, a :: acts => gives s a ++ ((step s a).map (collect step gives · acts)).getD []

/-- What holds of a state and all that was given before, every step keeping it. -/
theorem run_collect {β : Type*} (gives : σ → α → List β) (Bal : List β → σ → Prop) {bs : List β}
    (hrun : run step s acts = some s') (hbal : Bal bs s)
    (hstep : ∀ bs s a s', Bal bs s → step s a = some s' → Bal (bs ++ gives s a) s') :
    Bal (bs ++ collect step gives s acts) s' := by
  induction acts generalizing s bs with
  | nil =>
      simp only [run_nil, Option.some.injEq] at hrun
      simpa [collect, ← hrun] using hbal
  | cons a acts ih =>
      cases hs : step s a with
      | none => simp [hs] at hrun
      | some s₁ =>
          simp only [run_cons, hs, Option.bind_some] at hrun
          have htail := ih hrun (hstep bs s a s₁ hbal hs)
          simpa [collect, hs, List.append_assoc] using htail

end SnappCollector.Machine
