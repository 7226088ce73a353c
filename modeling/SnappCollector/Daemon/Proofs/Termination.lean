import SnappCollector.Daemon.Proofs.Requests

/-!
# The request to terminate

The main thread looks at `system_done` in one place, after a wait that did not time out.
The flag ends the loop if it is set before that test and a signal on `reload_cond` leads
to it.
-/

namespace SnappCollector.Daemon

open Machine

/-- The main thread is past the test of `system_done`, or on a way around it, and starts a
load. -/
def MainPlace.committed : MainPlace → Bool
  | .woken .ETIMEDOUT | .returned .ETIMEDOUT | .unlock | .new_config => true
  | .woken .zero | .returned .zero | .lock | .locked | .waiting | .load_config | .init_config
  | .delete_new | .config_lock | .delete_current | .deleting_current | .install | .config_unlock
  | .done | .deleting | .terminated => false

def MainPlace.terminating : MainPlace → Bool
  | .woken .zero | .returned .zero | .done | .deleting | .terminated => true
  | .woken .ETIMEDOUT | .returned .ETIMEDOUT | .lock | .locked | .waiting | .unlock | .new_config
  | .load_config | .init_config | .delete_new | .config_lock | .delete_current
  | .deleting_current | .install | .config_unlock => false

/-- The step does not set the flag behind the test, does not signal for it outside the wait,
and does not end the wait around it. -/
def heard (s : State) (a : Action) : Bool :=
  match a, s.signal_thread with
  | .main .timeout, _ => !s.system_done
  | .signal_thread, .term_set => !s.main.committed
  | .signal_thread, .term_signal => s.main = .waiting || s.main.terminating
  | _, _ => true

/-! ## What a step changes -/

section

variable {s s' : State} {a : Action}

theorem terminating_cond_signal (h : s.main = .waiting ∨ s.main.terminating = true) :
    s.cond_signal.main.terminating = true := by
  rw [cond_signal_main]
  split
  next => rfl
  next hplace => exact h.resolve_left hplace

theorem committed_of_cond_signal (h : s.cond_signal.main.committed = true) :
    s.main.committed = true := by
  rw [cond_signal_main] at h
  split at h
  next => cases h
  next => exact h

namespace Step

/-- The flag is set once, by the signal thread. -/
theorem system_done (hstep : Step s a s') :
    s'.system_done = s.system_done ∨ a = .signal_thread ∧ s.signal_thread = .term_set ∧
      s'.system_done = true ∧ s'.main = s.main := by
  cases hstep with
  | term_set hplace => exact .inr ⟨rfl, hplace, rfl, rfl⟩
  | hup_signal | term_signal => exact .inl (cond_signal_system_done s)
  | _ => exact .inl rfl

theorem system_done_mono (hstep : Step s a s') (hdone : s.system_done = true) :
    s'.system_done = true := by
  obtain heq | ⟨-, -, hset, -⟩ := hstep.system_done
  · rw [heq]
    exact hdone
  · exact hset

/-- The ways past the test of `system_done`: a timeout, and the flag found clear. -/
theorem committed (hstep : Step s a s') (hcommitted : s'.main.committed = true) :
    s.main.committed = true ∨ a = .main .timeout ∨ s.system_done = false := by
  cases hstep with
  | main_timeout => exact .inr (.inl rfl)
  | main_reload _ hdone => exact .inr (.inr hdone)
  | main_relock retcode hplace =>
      rw [hplace]
      cases retcode <;> exact .inl hcommitted
  | main_timed_out hplace | main_unlock hplace =>
      rw [hplace]
      exact .inl hcommitted
  | main_lock | main_wait | main_spurious | main_done | main_new | main_loaded | main_initialized
  | main_failed | main_delete_new | main_config_lock | main_delete | main_deleted | main_install
  | main_config_unlock | main_delete_done | main_deleted_done => cases hcommitted
  | hup_signal | term_signal => exact .inl (committed_of_cond_signal hcommitted)
  | _ => exact .inl hcommitted

theorem terminating (hstep : Step s a s') (hdone : s.system_done = true)
    (hterminating : s.main.terminating = true) : s'.main.terminating = true := by
  cases hstep with
  | main_relock retcode hplace =>
      rw [hplace] at hterminating
      cases retcode <;> exact hterminating
  | main_done | main_delete_done | main_deleted_done => rfl
  | main_reload _ hclear =>
      rw [hdone] at hclear
      cases hclear
  | main_lock hplace | main_wait hplace | main_timeout hplace | main_spurious hplace
  | main_timed_out hplace | main_unlock hplace | main_new _ hplace | main_loaded hplace
  | main_initialized hplace | main_delete_new hplace | main_config_lock hplace
  | main_delete hplace | main_deleted hplace | main_install hplace | main_config_unlock hplace =>
      rw [hplace] at hterminating
      cases hterminating
  | main_failed hplace =>
      obtain hplace | hplace := hplace <;> rw [hplace] at hterminating <;> cases hterminating
  | hup_signal | term_signal => exact terminating_cond_signal (.inr hterminating)
  | _ => exact hterminating

theorem term_handled (hstep : Step s a s') :
    s'.term_handled = s.term_handled ∨ a = .signal_thread ∧ s.signal_thread = .term_signal ∧
      s'.main = s.cond_signal.main := by
  cases hstep with
  | term_signal hplace => exact .inr ⟨rfl, hplace, rfl⟩
  | hup_signal => exact .inl (cond_signal_term_handled s)
  | _ => exact .inl rfl

theorem to_term_signal (hstep : Step s a s') (hplace : s'.signal_thread = .term_signal) :
    s.signal_thread = .term_signal ∨ s'.system_done = true := by
  cases hstep with
  | term_set => exact .inr rfl
  | hup | hup_lock | hup_unlock | hup_signal | term | term_test | term_signal => cases hplace
  | _ => exact .inl hplace

theorem late (hstep : Step s a s') :
    s'.late = s.late ∨ s.main = .new_config ∧ s.system_done = true := by
  cases hstep with
  | main_new _ hplace =>
      by_cases hdone : s.system_done = true
      · exact .inr ⟨hplace, hdone⟩
      · exact .inl (if_neg hdone)
  | hup_signal | term_signal => exact .inl (cond_signal_late s)
  | _ => exact .inl rfl

end Step

end

/-! ## The flag ends the loop -/

structure Final (s : State) : Prop where
  set_before_signal : s.signal_thread = .term_signal → s.system_done = true
  set_when_handled : s.term_handled = true → s.system_done = true
  uncommitted : s.system_done = true → s.main.committed = false
  terminating : s.term_handled = true → s.main.terminating = true
  late_eq_zero : s.late = 0

section

variable {s s' : State} {a : Action}

theorem final_init (k : Nat) : Final (State.init k) where
  set_before_signal h := by cases h
  set_when_handled h := by cases h
  uncommitted h := by cases h
  terminating h := by cases h
  late_eq_zero := rfl

theorem Final.set_before_signal_step (h : Final s) (hstep : Step s a s')
    (hplace : s'.signal_thread = .term_signal) : s'.system_done = true := by
  obtain hplace | hset := hstep.to_term_signal hplace
  · exact hstep.system_done_mono (h.set_before_signal hplace)
  · exact hset

theorem Final.set_when_handled_step (h : Final s) (hstep : Step s a s')
    (hhandled : s'.term_handled = true) : s'.system_done = true := by
  obtain heq | ⟨-, hplace, -⟩ := hstep.term_handled
  · exact hstep.system_done_mono (h.set_when_handled (heq ▸ hhandled))
  · exact hstep.system_done_mono (h.set_before_signal hplace)

theorem Final.uncommitted_step (h : Final s) (hok : heard s a = true) (hstep : Step s a s')
    (hdone : s'.system_done = true) : s'.main.committed = false := by
  by_contra hcommitted
  simp only [Bool.not_eq_false] at hcommitted
  obtain heq | ⟨rfl, hplace, -, hmain⟩ := hstep.system_done
  · rw [heq] at hdone
    obtain hbefore | rfl | hclear := hstep.committed hcommitted
    · rw [h.uncommitted hdone] at hbefore
      cases hbefore
    · simp [heard, hdone] at hok
    · rw [hdone] at hclear
      cases hclear
  · -- the step that sets the flag
    simp only [heard, hplace] at hok
    rw [← hmain, hcommitted] at hok
    cases hok

theorem Final.terminating_step (h : Final s) (hok : heard s a = true) (hstep : Step s a s')
    (hhandled : s'.term_handled = true) : s'.main.terminating = true := by
  obtain heq | ⟨rfl, hplace, hmain⟩ := hstep.term_handled
  · rw [heq] at hhandled
    exact hstep.terminating (h.set_when_handled hhandled) (h.terminating hhandled)
  · -- the step that signals for the flag
    simp only [heard, hplace, Bool.or_eq_true, decide_eq_true_eq] at hok
    rw [hmain]
    exact terminating_cond_signal hok

theorem Final.late_step (h : Final s) (hstep : Step s a s') : s'.late = 0 := by
  obtain heq | ⟨hplace, hdone⟩ := hstep.late
  · rw [heq]
    exact h.late_eq_zero
  · have hcommitted := h.uncommitted hdone
    rw [hplace] at hcommitted
    cases hcommitted

theorem Final.step (h : Final s) (hok : heard s a = true) (hstep : Step s a s') : Final s' where
  set_before_signal := h.set_before_signal_step hstep
  set_when_handled := h.set_when_handled_step hstep
  uncommitted := h.uncommitted_step hok hstep
  terminating := h.terminating_step hok hstep
  late_eq_zero := h.late_step hstep

/-- If the flag and its signal come before the test, no load is started with the flag set,
and after the signal the main thread is on its way to `done`. -/
theorem final_of_heard {k : Nat}
    (h : Reaches step (fun s a => heard s a = true) (State.init k) s) :
    s.late = 0 ∧ (s.term_handled = true → s.main.terminating = true) := by
  have hfinal : Final s :=
    h.invariant (final_init k) fun _ _ _ hinv hok hs => hinv.step hok (step_sound hs).2
  exact ⟨hfinal.late_eq_zero, hfinal.terminating⟩

end

/-! ## A run of each kind -/

def term_actions : List Action :=
  [.raise .SIGTERM, .sigwait .SIGTERM, .signal_thread, .signal_thread, .signal_thread]

theorem final_in_wait : ∃ s : State, s.main = .woken .zero ∧ s.late = 0 ∧
    (s.term_handled = true → s.main.terminating = true) := by
  have hreach : Reaches step (fun s a => heard s a = true) (State.init 0)
      (after 0 (wait_actions ++ term_actions)) :=
    reaches_after (by decide)
  exact ⟨_, by decide, final_of_heard hreach⟩

/-- A SIGTERM that comes during a reload; the next wait times out. -/
def deaf_run : List Action :=
  wait_actions ++ [.main .timeout] ++ new_actions 1 ++ term_actions ++ load_actions ++
    install_actions ++ wait_actions

/-- The flag is set and the main thread waits, and after the wait it starts a load. -/
theorem late_after_reload :
    (∃ s : State, Reachable step (State.init 0) s ∧ s.term_handled = true ∧ s.main = .waiting) ∧
    ∃ s : State, Reachable step (State.init 0) s ∧ s.late = 1 :=
  ⟨⟨after 0 deaf_run, reachable_after (by decide), by decide, by decide⟩,
    ⟨after 0 (deaf_run ++ [.main .timeout] ++ new_actions 2),
      reachable_after (by decide), by decide⟩⟩

end SnappCollector.Daemon
