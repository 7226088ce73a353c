import SnappCollector.Machine.Runs

/-!
# Systems that come to rest

Some actions are work, which the threads do by themselves; the others bring something new.
If all work lowers a measure and some work is possible wherever the system is not at rest,
then whatever the order in which it is done, the work ends, and it ends at rest.
-/

namespace SnappCollector.Machine

variable {σ α : Type*} {step : σ → α → Option σ} {work : σ → α → Prop} {rest Inv : σ → Prop}
  {μ : σ → Nat} {s s' : σ} {a : α} {acts : List α}

/-- From `s` on, every run of work has at most `bound` steps, and ends at rest unless it can
be continued. -/
structure ComesToRest (step : σ → α → Option σ) (work : σ → α → Prop) (rest : σ → Prop)
    (bound : Nat) (s : σ) : Prop where
  bounded : ∀ acts s', run step s acts = some s' → Keeps step work s acts → acts.length ≤ bound
  continues : ∀ s', Reaches step work s s' → rest s' ∨ ∃ a s'', work s' a ∧ step s' a = some s''
  reached : ∃ s', Reaches step work s s' ∧ rest s'

theorem length_le_of_lowers (hinv : Inv s)
    (hkeeps : ∀ s a s', Inv s → work s a → step s a = some s' → Inv s')
    (hlowers : ∀ s a s', Inv s → work s a → step s a = some s' → μ s' < μ s)
    (hrun : run step s acts = some s') (hwork : Keeps step work s acts) :
    acts.length ≤ μ s := by
  induction acts generalizing s with
  | nil => simp
  | cons a acts ih =>
      obtain ⟨ha, hrest⟩ := hwork
      cases hs : step s a with
      | none => simp [hs] at hrun
      | some s₁ =>
          simp only [run_cons, hs, Option.bind_some] at hrun
          have htail := ih (hkeeps s a s₁ hinv ha hs) hrun (hrest s₁ hs)
          have hless := hlowers s a s₁ hinv ha hs
          rw [List.length_cons]
          omega

theorem exists_rest_of_lowers (hinv : Inv s)
    (hkeeps : ∀ s a s', Inv s → work s a → step s a = some s' → Inv s')
    (hlowers : ∀ s a s', Inv s → work s a → step s a = some s' → μ s' < μ s)
    (hprogress : ∀ s, Inv s → ¬rest s → ∃ a s', work s a ∧ step s a = some s') :
    ∃ s', Reaches step work s s' ∧ rest s' := by
  induction hμ : μ s using Nat.strongRecOn generalizing s with
  | _ m ih =>
      by_cases hrest : rest s
      · exact ⟨s, .start, hrest⟩
      · obtain ⟨a, s₁, ha, hs⟩ := hprogress s hinv hrest
        have hless := hlowers s a s₁ hinv ha hs
        obtain ⟨s', hreach, hrest'⟩ := ih (μ s₁) (hμ ▸ hless) (hkeeps s a s₁ hinv ha hs) rfl
        exact ⟨s', (Reaches.next .start ha hs).trans hreach, hrest'⟩

/-- The rule: an invariant that work keeps, a measure that it lowers, and work to do in
every state that is not at rest. -/
theorem comesToRest_of_lowers (Inv : σ → Prop) (hinv : Inv s)
    (hkeeps : ∀ s a s', Inv s → work s a → step s a = some s' → Inv s')
    (hlowers : ∀ s a s', Inv s → work s a → step s a = some s' → μ s' < μ s)
    (hprogress : ∀ s, Inv s → ¬rest s → ∃ a s', work s a ∧ step s a = some s') :
    ComesToRest step work rest (μ s) s where
  bounded _ _ hrun hwork := length_le_of_lowers hinv hkeeps hlowers hrun hwork
  continues s' hreach := by
    have hinv' : Inv s' := hreach.invariant hinv fun s a s' => hkeeps s a s'
    by_cases hrest : rest s'
    · exact .inl hrest
    · exact .inr (hprogress s' hinv' hrest)
  reached := exists_rest_of_lowers hinv hkeeps hlowers hprogress

end SnappCollector.Machine
