import SnappCollector.Daemon.Steps

/-!
# Requests for a reload

A SIGHUP is kept by nothing but the signal on `reload_cond`.  It is served if that signal
finds the main thread in the wait or on the way to a load, or if a load was started since
the SIGHUP arrived.
-/

namespace SnappCollector.Daemon

open Machine

/-- The main thread comes to a load, or to its end, before it waits again. -/
def MainPlace.ahead : MainPlace → Bool
  | .woken _ | .returned _ | .unlock | .new_config | .done | .deleting | .terminated => true
  | .lock | .locked | .waiting | .load_config | .init_config | .delete_new | .config_lock
  | .delete_current | .deleting_current | .install | .config_unlock => false

/-- The loads that had been started when the SIGHUP in hand arrived. -/
def SignalPlace.arrived : SignalPlace → Option Nat
  | .hup_lock arrived | .hup_unlock arrived | .hup_signal arrived => some arrived
  | .sigwait | .term_test | .term_set | .term_signal => none

/-- The step does not signal for a SIGHUP that nothing answers. -/
def lossless (s : State) (a : Action) : Bool :=
  match a, s.signal_thread with
  | .signal_thread, .hup_signal arrived =>
      s.main = .waiting || s.main.ahead || arrived < s.loads
  | _, _ => true

/-! ## What a step changes -/

section

variable {s s' : State} {a : Action}

theorem ahead_cond_signal (h : s.main = .waiting ∨ s.main.ahead = true) :
    s.cond_signal.main.ahead = true := by
  rw [cond_signal_main]
  split
  next => rfl
  next hplace => exact h.resolve_left hplace

theorem ahead_of_cond_signal (h : s.main.ahead = true) : s.cond_signal.main.ahead = true :=
  ahead_cond_signal (.inr h)

namespace Step

theorem loads_le (hstep : Step s a s') : s.loads ≤ s'.loads := by
  cases hstep with
  | main_new => exact Nat.le_succ _
  | hup_signal => exact Nat.le_of_eq (cond_signal_loads s).symm
  | term_signal => exact Nat.le_of_eq (cond_signal_loads s).symm
  | _ => exact Nat.le_refl _

theorem ahead (hstep : Step s a s') (hahead : s.main.ahead = true) :
    s'.main.ahead = true ∨ s.loads < s'.loads := by
  cases hstep with
  | main_new => exact .inr (Nat.lt_succ_self _)
  | main_relock | main_timed_out | main_done | main_reload | main_unlock | main_delete_done
  | main_deleted_done => exact .inl rfl
  | hup_signal | term_signal => exact .inl (ahead_of_cond_signal hahead)
  | main_lock hplace | main_wait hplace | main_timeout hplace | main_spurious hplace
  | main_loaded hplace | main_initialized hplace | main_delete_new hplace
  | main_config_lock hplace | main_delete hplace | main_deleted hplace | main_install hplace
  | main_config_unlock hplace =>
      rw [hplace] at hahead
      cases hahead
  | main_failed hplace => obtain hplace | hplace := hplace <;> rw [hplace] at hahead <;> cases hahead
  | _ => exact .inl hahead

theorem arrived {n : Nat} (hstep : Step s a s') (harrived : s'.signal_thread.arrived = some n) :
    s.signal_thread.arrived = some n ∨ n = s.loads := by
  cases hstep with
  | hup => exact .inr (Option.some.inj harrived).symm
  | hup_lock _ hplace | hup_unlock _ hplace =>
      rw [hplace]
      exact .inl harrived
  | hup_signal | term | term_test | term_set | term_signal => cases harrived
  | _ => exact .inl harrived

theorem handled (hstep : Step s a s') :
    s'.handled = s.handled ∨ ∃ arrived, a = .signal_thread ∧
      s.signal_thread = .hup_signal arrived ∧ s'.handled = s.handled ++ [arrived] ∧
      s'.main = s.cond_signal.main ∧ s'.loads = s.loads := by
  cases hstep with
  | hup_signal arrived hplace =>
      exact .inr ⟨arrived, rfl, hplace, rfl, rfl, cond_signal_loads s⟩
  | term_signal => exact .inl (cond_signal_handled s)
  | _ => exact .inl rfl

end Step

end

/-! ## Every request is served -/

/-- Each SIGHUP is answered by a load, or has the main thread on the way to one. -/
structure Served (s : State) : Prop where
  arrived_le : ∀ n, s.signal_thread.arrived = some n → n ≤ s.loads
  handled_le : ∀ n ∈ s.handled, n ≤ s.loads
  answered : ∀ n ∈ s.handled, n < s.loads ∨ s.main.ahead = true

section

variable {s s' : State} {a : Action}

theorem served_init (k : Nat) : Served (State.init k) where
  arrived_le _ h := by cases h
  handled_le _ h := by cases h
  answered _ h := by cases h

theorem Served.arrived_le_step (h : Served s) (hstep : Step s a s') :
    ∀ n, s'.signal_thread.arrived = some n → n ≤ s'.loads := by
  intro n hn
  refine Nat.le_trans ?_ hstep.loads_le
  obtain hn | rfl := hstep.arrived hn
  · exact h.arrived_le n hn
  · exact Nat.le_refl _

theorem Served.handled_le_step (h : Served s) (hstep : Step s a s') :
    ∀ n ∈ s'.handled, n ≤ s'.loads := by
  intro n hn
  refine Nat.le_trans ?_ hstep.loads_le
  obtain heq | ⟨arrived, -, hplace, heq, -⟩ := hstep.handled
  · exact h.handled_le n (heq ▸ hn)
  · rw [heq, List.mem_append, List.mem_singleton] at hn
    obtain hn | rfl := hn
    · exact h.handled_le n hn
    · exact h.arrived_le n (by rw [hplace]; rfl)

theorem Served.answered_mono {n : Nat} (h : Served s) (hn : n ∈ s.handled) (hstep : Step s a s') :
    n < s'.loads ∨ s'.main.ahead = true := by
  have hloads := hstep.loads_le
  obtain hlt | hahead := h.answered n hn
  · exact .inl (by omega)
  · obtain hahead | hlt := hstep.ahead hahead
    · exact .inr hahead
    · have hle := h.handled_le n hn
      exact .inl (by omega)

theorem Served.answered_step (h : Served s) (hok : lossless s a = true) (hstep : Step s a s') :
    ∀ n ∈ s'.handled, n < s'.loads ∨ s'.main.ahead = true := by
  intro n hn
  obtain heq | ⟨arrived, rfl, hplace, heq, hmain, hloads⟩ := hstep.handled
  · exact h.answered_mono (heq ▸ hn) hstep
  · rw [heq, List.mem_append, List.mem_singleton] at hn
    obtain hn | rfl := hn
    · exact h.answered_mono hn hstep
    · -- the new one: the condition on the step says what answers it
      simp only [lossless, hplace, Bool.or_eq_true, decide_eq_true_eq] at hok
      rw [hmain, hloads]
      obtain hahead | hlt := hok
      · exact .inr (ahead_cond_signal hahead)
      · exact .inl hlt

theorem Served.step (h : Served s) (hok : lossless s a = true) (hstep : Step s a s') :
    Served s' where
  arrived_le := h.arrived_le_step hstep
  handled_le := h.handled_le_step hstep
  answered := h.answered_step hok hstep

theorem served_of_reaches {k : Nat}
    (h : Reaches step (fun s a => lossless s a = true) (State.init k) s) : Served s :=
  h.invariant (served_init k) fun _ _ _ hinv hok hs => hinv.step hok (step_sound hs).2

/-- If no signal is lost, a main thread in the wait owes no load. -/
theorem served_of_lossless {k : Nat}
    (h : Reaches step (fun s a => lossless s a = true) (State.init k) s)
    (hwait : s.main = .waiting) (n : Nat) (hn : n ∈ s.handled) : n < s.loads := by
  obtain hlt | hahead := (served_of_reaches h).answered n hn
  · exact hlt
  · rw [hwait] at hahead
    cases hahead

end

/-! ## A run of each kind -/

def wait_actions : List Action := [.main .go, .main .go]

def hup_actions : List Action :=
  [.raise .SIGHUP, .sigwait .SIGHUP, .signal_thread, .signal_thread, .signal_thread]

def new_actions (address : Nat) : List Action :=
  [.main .go, .main .go, .main .go, .main (.new address)]

def load_actions : List Action := [.main .go, .main .go]

def install_actions : List Action :=
  [.main .go, .main .go, .main .go, .main .go, .main .go]

def after (k : Nat) (acts : List Action) : State :=
  (run step (State.init k) acts).getD (State.init k)

theorem reachable_after {k : Nat} {acts : List Action}
    (h : (run step (State.init k) acts).isSome = true) :
    Reachable step (State.init k) (after k acts) := by
  obtain ⟨s, hs⟩ := Option.isSome_iff_exists.mp h
  rw [after, hs]
  exact Reachable.of_run hs

theorem reaches_after {ok : State → Action → Bool} {k : Nat} {acts : List Action}
    (h : run (fun s a => if ok s a = true then step s a else none) (State.init k) acts =
      some (after k acts)) :
    Reaches step (fun s a => ok s a = true) (State.init k) (after k acts) :=
  Reaches.of_run h

def reload_run : List Action :=
  wait_actions ++ hup_actions ++ new_actions 1 ++ load_actions ++ install_actions ++ wait_actions

theorem served_reload : ∃ s : State, s.main = .waiting ∧ s.handled = [0] ∧ 0 < s.loads := by
  have hreach : Reaches step (fun s a => lossless s a = true) (State.init 0)
      (after 0 reload_run) := reaches_after (by decide)
  exact ⟨_, by decide, by decide, served_of_lossless hreach (by decide) 0 (by decide)⟩

/-- A SIGHUP that comes while a load runs which then fails. -/
def lost_run : List Action :=
  wait_actions ++ [.main .timeout] ++ new_actions 1 ++ hup_actions ++
    [.main .failed, .main .go] ++ wait_actions

/-- The main thread waits, and no load was started after the SIGHUP. -/
theorem lost_in_reload : ∃ s : State, Reachable step (State.init 0) s ∧ s.main = .waiting ∧
    ¬∀ n ∈ s.handled, n < s.loads :=
  ⟨after 0 lost_run, reachable_after (by decide), by decide, by decide⟩

end SnappCollector.Daemon
