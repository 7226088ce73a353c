import SnappCollector.Log.Proofs.Levels
import SnappCollector.Machine.Progress

/-!
# Logging never hangs

`do_regexp` logs only after it has given the write lock back, and nobody takes two locks at once.
So the threads never wait for each other in a circle, and every call ends after a bounded number
of steps of all of them.
-/

namespace SnappCollector.Log

open CLib Machine

variable {ρ : Type*} {n : Nat}

/-- How many steps a thread takes from its place to the end of the call, at most. -/
def Place.left : Place → Nat
  | idle | fault => 0
  | output _ _ _ => 1
  | rdunlock _ _ _ => 2
  | exec _ _ => 3
  | check _ => 4
  | rdlock _ => 5
  | wrunlock _ | set_unlock _ => 6
  | study | set_mask _ _ => 7
  | compile _ | set_level _ _ => 8
  | null_extra _ | set_lock _ _ => 9
  | free_extra _ | get_unlock _ => 10
  | null_re _ | get_read => 11
  | free_re _ | get_lock => 12
  | wrlock _ => 13

def State.workLeft (s : State ρ n) : Nat := ∑ i, (s.thread i).left

def Action.work : Action n → Bool
  | .thread _ => true
  | .call _ _ | .cancel _ | .syslog_ready => false

def State.AtRest (s : State ρ n) : Prop := ∀ i, s.thread i = .idle

section Step

variable {pcre : Pcre ρ} {s s' : State ρ n} {a : Action n} {i : Fin n}

theorem next_place_left (next : Option Message) : (next_place next).left < 6 := by
  cases next <;> simp [next_place, Place.left]

theorem thread_step (hs : Step pcre s (.thread i) s') :
    ∃ place, s'.thread = Function.update s.thread i place ∧ place.left < (s.thread i).left := by
  cases hs with
  | set_rejected i _ next hplace | set_unlock i next hplace =>
      have hleft := next_place_left next
      refine ⟨_, rfl, ?_⟩
      rw [hplace, Place.left]
      omega
  | rdlock _ _ hplace | check_none _ _ hplace | check_some _ _ _ hplace | exec _ _ _ _ hplace
  | exec_fault _ _ _ hplace | rdunlock _ _ _ _ hplace | output _ _ _ _ hplace
  | wrlock _ _ hplace | free_re_none _ _ hplace | free_re _ _ _ _ hplace
  | free_re_fault _ _ _ hplace | null_re _ _ hplace | free_extra_none _ _ hplace
  | free_extra _ _ _ _ hplace | free_extra_fault _ _ _ hplace | null_extra _ _ hplace
  | compile_short _ _ hplace | compile_error _ _ hplace | compile _ _ _ hplace | study _ _ hplace
  | study_none _ _ hplace | study_fault _ hplace | wrunlock _ _ hplace | get_lock _ hplace
  | get_read _ hplace | get_unlock _ _ hplace | set_lock _ _ _ hplace | set_level _ _ _ hplace
  | set_mask _ _ _ hplace => exact ⟨_, rfl, by simp [hplace, Place.left]⟩

theorem workLeft_step (hs : Step pcre s (.thread i) s') : s'.workLeft < s.workLeft := by
  obtain ⟨place, hthread, hless⟩ := thread_step hs
  have hsum := sum_add_of_eq (f := fun j => (s.thread j).left)
    (g := fun j => (s'.thread j).left) (i := i) fun j hj => by rw [hthread, Function.update_of_ne hj]
  rw [hthread, Function.update_self] at hsum
  simp only [State.workLeft, hthread]
  omega

/-! ## Nobody waits for ever -/

def LevelOwned (s : State ρ n) : Prop := Owned s.log_level_mutex fun i => (s.thread i).inLevel

theorem LevelOwned.move (h : LevelOwned s) {place : Place}
    (hthread : s'.thread = Function.update s.thread i place)
    (hmutex : s'.log_level_mutex = s.log_level_mutex) (hin : place.inLevel = (s.thread i).inLevel) :
    LevelOwned s' := by
  rw [LevelOwned, hmutex, hthread]
  refine h.frame fun j hj => ?_
  rwa [update_congr Place.inLevel hin]

end Step

end SnappCollector.Log
