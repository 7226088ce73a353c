import Mathlib.Data.List.Basic

/-!
# Mutual exclusion

A lock names its owner, and a thread is inside when its place in the code lies
between a lock and an unlock.  Only the owner is inside.
-/

namespace SnappCollector.Machine

variable {τ : Type*} {lock : Option τ} {inside inside' : τ → Bool} {t u : τ}

/-- Whoever is inside owns the lock. -/
def Guards (lock : Option τ) (inside : τ → Bool) : Prop :=
  ∀ t, inside t = true → lock = some t

namespace Guards

theorem frame (h : Guards lock inside) (hsub : ∀ t, inside' t = true → inside t = true) :
    Guards lock inside' := by
  intro t ht
  exact h t (hsub t ht)

theorem acquire (h : Guards none inside)
    (hsub : ∀ u, u ≠ t → inside' u = true → inside u = true) : Guards (some t) inside' := by
  intro u hu
  by_cases heq : u = t
  · rw [heq]
  · have howner := h u (hsub u heq hu)
    cases howner

theorem release (h : Guards (some t) inside) (hout : inside' t = false)
    (hsub : ∀ u, inside' u = true → inside u = true) : Guards none inside' := by
  intro u hu
  have howner := h u (hsub u hu)
  obtain rfl := Option.some.inj howner
  rw [hout] at hu
  cases hu

theorem eq_of_inside (h : Guards lock inside) (ht : inside t = true) (hu : inside u = true) :
    t = u := by
  have howner := h t ht
  rw [h u hu] at howner
  exact (Option.some.inj howner).symm

theorem outside (h : Guards lock inside) (ht : inside t = true) (hne : u ≠ t) :
    inside u = false := by
  by_contra hu
  exact hne (h.eq_of_inside (by simpa using hu) ht)

theorem outside_of_free (h : Guards none inside) (t : τ) : inside t = false := by
  by_contra ht
  have howner := h t (by simpa using ht)
  cases howner

end Guards

/-! ## The other direction

A lock that nobody inside holds blocks everyone for ever. -/

/-- Whoever owns the lock is inside. -/
def Owned (lock : Option τ) (inside : τ → Bool) : Prop :=
  ∀ t, lock = some t → inside t = true

namespace Owned

theorem free : Owned none inside := by
  intro t ht
  cases ht

theorem frame (h : Owned lock inside) (hsub : ∀ t, inside t = true → inside' t = true) :
    Owned lock inside' := by
  intro t ht
  exact hsub t (h t ht)

theorem acquire (h : inside t = true) : Owned (some t) inside := by
  intro u hu
  rwa [← Option.some.inj hu]

end Owned

end SnappCollector.Machine
