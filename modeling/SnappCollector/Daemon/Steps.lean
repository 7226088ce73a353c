import SnappCollector.Daemon.Machine

/-!
# What a step of the daemon can do

`Step` lists the transitions one by one, with their guards; `step_sound` connects it to
the step function.
-/

namespace SnappCollector.Daemon

/-! ## The signal on `reload_cond` -/

section

variable (s : State)

theorem cond_signal_eq : s.cond_signal =
    { s with main := if s.main = .waiting then .woken .zero else s.main } := by
  unfold State.cond_signal
  split
  · rfl
  · rfl

theorem cond_signal_main :
    s.cond_signal.main = if s.main = .waiting then .woken .zero else s.main := by
  rw [cond_signal_eq]

@[simp] theorem cond_signal_loads : s.cond_signal.loads = s.loads := by
  rw [cond_signal_eq]

@[simp] theorem cond_signal_handled : s.cond_signal.handled = s.handled := by
  rw [cond_signal_eq]

@[simp] theorem cond_signal_system_done : s.cond_signal.system_done = s.system_done := by
  rw [cond_signal_eq]

@[simp] theorem cond_signal_late : s.cond_signal.late = s.late := by
  rw [cond_signal_eq]

@[simp] theorem cond_signal_term_handled : s.cond_signal.term_handled = s.term_handled := by
  rw [cond_signal_eq]

@[simp] theorem cond_signal_client : s.cond_signal.client = s.client := by
  rw [cond_signal_eq]

@[simp] theorem cond_signal_config_mutex : s.cond_signal.config_mutex = s.config_mutex := by
  rw [cond_signal_eq]

@[simp] theorem cond_signal_current_config : s.cond_signal.current_config = s.current_config := by
  rw [cond_signal_eq]

@[simp] theorem cond_signal_new_config : s.cond_signal.new_config = s.new_config := by
  rw [cond_signal_eq]

@[simp] theorem cond_signal_installed : s.cond_signal.installed = s.installed := by
  rw [cond_signal_eq]

end

/-! ## The transitions -/

inductive Step (s : State) : Action → State → Prop where
  | raise (signo : Signo) : Step s (.raise signo) { s with pending := s.pending.insert signo }
  -- the main thread
  | main_lock (hplace : s.main = .lock) (hfree : s.reload_lock = none) :
      Step s (.main .go) { s with reload_lock := some .main, main := .locked }
  | main_wait (hplace : s.main = .locked) :
      Step s (.main .go) { s with reload_lock := none, main := .waiting }
  | main_timeout (hplace : s.main = .waiting) :
      Step s (.main .timeout) { s with main := .woken .ETIMEDOUT }
  | main_spurious (hplace : s.main = .waiting) :
      Step s (.main .spurious_wakeup) { s with main := .woken .zero }
  | main_relock (retcode : Retcode) (hplace : s.main = .woken retcode)
      (hfree : s.reload_lock = none) :
      Step s (.main .go) { s with reload_lock := some .main, main := .returned retcode }
  | main_timed_out (hplace : s.main = .returned .ETIMEDOUT) :
      Step s (.main .go) { s with main := .unlock }
  | main_done (hplace : s.main = .returned .zero) (hdone : s.system_done = true) :
      Step s (.main .go) { s with main := .done }
  | main_reload (hplace : s.main = .returned .zero) (hdone : s.system_done = false) :
      Step s (.main .go) { s with main := .unlock }
  | main_unlock (hplace : s.main = .unlock) :
      Step s (.main .go) { s with reload_lock := none, main := .new_config }
  | main_new (address : Nat) (hplace : s.main = .new_config)
      (hfresh : address ≠ s.current_config.address) :
      Step s (.main (.new address))
        { s with
          new_config := ⟨address, s.loads + 1, .created⟩
          loads := s.loads + 1
          late := if s.system_done then s.late + 1 else s.late
          main := .load_config }
  | main_loaded (hplace : s.main = .load_config) :
      Step s (.main .go)
        { s with new_config := { s.new_config with phase := .loaded }, main := .init_config }
  | main_initialized (hplace : s.main = .init_config) :
      Step s (.main .go)
        { s with new_config := { s.new_config with phase := .initialized }, main := .config_lock }
  | main_failed (hplace : s.main = .load_config ∨ s.main = .init_config) :
      Step s (.main .failed) { s with main := .delete_new }
  | main_delete_new (hplace : s.main = .delete_new) :
      Step s (.main .go)
        { s with new_config := { s.new_config with phase := .deleted }, main := .lock }
  | main_config_lock (hplace : s.main = .config_lock) (hfree : s.config_mutex = none) :
      Step s (.main .go) { s with config_mutex := some .main, main := .delete_current }
  | main_delete (hplace : s.main = .delete_current) :
      Step s (.main .go)
        { s with
          current_config := { s.current_config with phase := .deleting }
          main := .deleting_current }
  | main_deleted (hplace : s.main = .deleting_current) :
      Step s (.main .go)
        { s with
          current_config := { s.current_config with phase := .deleted }, main := .install }
  | main_install (hplace : s.main = .install) :
      Step s (.main .go)
        { s with
          current_config := s.new_config
          installed := s.installed ++ [s.new_config.load]
          main := .config_unlock }
  | main_config_unlock (hplace : s.main = .config_unlock) :
      Step s (.main .go) { s with config_mutex := none, main := .lock }
  | main_delete_done (hplace : s.main = .done) :
      Step s (.main .go)
        { s with
          current_config := { s.current_config with phase := .deleting }, main := .deleting }
  | main_deleted_done (hplace : s.main = .deleting) :
      Step s (.main .go)
        { s with
          current_config := { s.current_config with phase := .deleted }, main := .terminated }
  -- the end of the process
  | exit (a : Action) : Step s a { s with exited := true }
  | exit_by_signal (signo : Signo) :
      Step s (.sigwait signo) { s with pending := s.pending.erase signo, exited := true }
  -- the signal thread
  | hup (hplace : s.signal_thread = .sigwait) :
      Step s (.sigwait .SIGHUP)
        { s with pending := s.pending.erase .SIGHUP, signal_thread := .hup_lock s.loads }
  | hup_lock (arrived : Nat) (hplace : s.signal_thread = .hup_lock arrived)
      (hfree : s.reload_lock = none) :
      Step s .signal_thread
        { s with reload_lock := some .signal_thread, signal_thread := .hup_unlock arrived }
  | hup_unlock (arrived : Nat) (hplace : s.signal_thread = .hup_unlock arrived) :
      Step s .signal_thread
        { s with reload_lock := none, signal_thread := .hup_signal arrived }
  | hup_signal (arrived : Nat) (hplace : s.signal_thread = .hup_signal arrived) :
      Step s .signal_thread
        { s.cond_signal with handled := s.handled ++ [arrived], signal_thread := .sigwait }
  | term (hplace : s.signal_thread = .sigwait) :
      Step s (.sigwait .SIGTERM)
        { s with pending := s.pending.erase .SIGTERM, signal_thread := .term_test }
  | term_test (hplace : s.signal_thread = .term_test) (hdone : s.system_done = false) :
      Step s .signal_thread { s with signal_thread := .term_set }
  | term_set (hplace : s.signal_thread = .term_set) :
      Step s .signal_thread { s with system_done := true, signal_thread := .term_signal }
  | term_signal (hplace : s.signal_thread = .term_signal) :
      Step s .signal_thread
        { s.cond_signal with term_handled := true, signal_thread := .sigwait }
  -- the control workers
  | client_call (i : Nat) (a : ClientAction) (place : ClientPlace)
      (hplace : s.client[i]? = some .idle) (hcall : place = .status_lock ∨ place = .sample_lock) :
      Step s (.client i a) { s with client := s.client.set i place }
  | status_lock (i : Nat) (hplace : s.client[i]? = some .status_lock)
      (hfree : s.config_mutex = none) :
      Step s (.client i .go)
        { s with config_mutex := some (.client i), client := s.client.set i .status }
  | status_unlock (i : Nat) (hplace : s.client[i]? = some .status) :
      Step s (.client i .go) { s with config_mutex := none, client := s.client.set i .idle }
  | sample_lock (i : Nat) (hplace : s.client[i]? = some .sample_lock)
      (hfree : s.config_mutex = none) :
      Step s (.client i .go)
        { s with config_mutex := some (.client i), client := s.client.set i .sample }
  | sample_unlock (i : Nat) (hplace : s.client[i]? = some .sample) :
      Step s (.client i .go)
        { s with
          config_mutex := none, client := s.client.set i (.kill s.current_config.address) }
  | kill (i sampled : Nat) (hplace : s.client[i]? = some (.kill sampled)) :
      Step s (.client i .go)
        { s with
          pending := s.pending.insert .SIGHUP
          client := s.client.set i (.poll 0 sampled sampled s.loads) }
  | poll_again (i n sampled sent : Nat)
      (hplace : s.client[i]? = some (.poll n sampled sampled sent)) (hleft : n < wait_secs) :
      Step s (.client i .go) { s with client := s.client.set i (.poll_lock n sampled sent) }
  | poll_end (i n sampled found sent : Nat)
      (hplace : s.client[i]? = some (.poll n sampled found sent))
      (hend : ¬(n < wait_secs ∧ sampled = found)) :
      Step s (.client i .go)
        { s with client := s.client.set i (.answered (found ≠ sampled) sent) }
  | poll_lock (i n sampled sent : Nat) (hplace : s.client[i]? = some (.poll_lock n sampled sent))
      (hfree : s.config_mutex = none) :
      Step s (.client i .go)
        { s with
          config_mutex := some (.client i), client := s.client.set i (.poll_read n sampled sent) }
  | poll_unlock (i n sampled sent : Nat) (hplace : s.client[i]? = some (.poll_read n sampled sent)) :
      Step s (.client i .go)
        { s with
          config_mutex := none
          client := s.client.set i (.poll (n + 1) sampled s.current_config.address sent) }
  | client_next (i : Nat) (successful : Bool) (sent : Nat)
      (hplace : s.client[i]? = some (.answered successful sent)) :
      Step s (.client i .go) { s with client := s.client.set i .idle }

variable {s s' : State} {a : Action}

theorem mainStep_sound {place : MainPlace} {act : MainAction} (hplace : s.main = place)
    (h : mainStep s place act = some s') : Step s (.main act) s' := by
  unfold mainStep at h
  split at h
  · split at h
    · cases h
    · cases h
      exact .main_lock hplace ‹_›
  · cases h
    exact .main_wait hplace
  · cases h
    exact .main_timeout hplace
  · cases h
    exact .main_spurious hplace
  · cases h
    exact .exit _
  · split at h
    · cases h
    · cases h
      exact .main_relock _ hplace ‹_›
  · cases h
    exact .main_timed_out hplace
  · cases h
    by_cases hdone : s.system_done = true
    · rw [if_pos hdone]
      exact .main_done hplace hdone
    · rw [if_neg hdone]
      exact .main_reload hplace (by simpa using hdone)
  · cases h
    exact .main_unlock hplace
  · split at h
    · cases h
    · cases h
      exact .main_new _ hplace ‹_›
  · cases h
    exact .main_loaded hplace
  · cases h
    exact .main_initialized hplace
  · cases h
    exact .main_failed (.inl hplace)
  · cases h
    exact .main_failed (.inr hplace)
  · cases h
    exact .exit _
  · cases h
    exact .exit _
  · cases h
    exact .main_delete_new hplace
  · split at h
    · cases h
    · cases h
      exact .main_config_lock hplace ‹_›
  · cases h
    exact .main_delete hplace
  · cases h
    exact .main_deleted hplace
  · cases h
    exact .main_install hplace
  · cases h
    exact .main_config_unlock hplace
  · cases h
    exact .main_delete_done hplace
  · cases h
    exact .main_deleted_done hplace
  · cases h
    exact .exit _
  · cases h

theorem sigwaitStep_sound {signo : Signo} (h : sigwaitStep s signo = some s') :
    Step s (.sigwait signo) s' := by
  unfold sigwaitStep at h
  split at h
  next hready =>
    cases signo with
    | SIGHUP =>
        cases h
        exact .hup hready.1
    | SIGTERM =>
        cases h
        exact .term hready.1
    | SIGINT =>
        cases h
        exact .exit_by_signal _
  next => cases h

theorem signalStep_sound {place : SignalPlace} (hplace : s.signal_thread = place)
    (h : signalStep s place = some s') : Step s .signal_thread s' := by
  cases place with
  | sigwait => cases h
  | hup_lock arrived =>
      simp only [signalStep] at h
      split at h
      · cases h
      · cases h
        exact .hup_lock _ hplace ‹_›
  | hup_unlock arrived =>
      cases h
      exact .hup_unlock _ hplace
  | hup_signal arrived =>
      cases h
      exact .hup_signal _ hplace
  | term_test =>
      simp only [signalStep] at h
      split at h
      · cases h
        exact .exit _
      next hdone =>
        cases h
        exact .term_test hplace (by simpa using hdone)
  | term_set =>
      cases h
      exact .term_set hplace
  | term_signal =>
      cases h
      exact .term_signal hplace

theorem clientStep_sound {i : Nat} {place : ClientPlace} {act : ClientAction}
    (hplace : s.client[i]? = some place) (h : clientStep s i place act = some s') :
    Step s (.client i act) s' := by
  unfold clientStep at h
  split at h
  · cases h
    exact .client_call i _ _ hplace (.inl rfl)
  · cases h
    exact .client_call i _ _ hplace (.inr rfl)
  · split at h
    · cases h
    · cases h
      exact .status_lock i hplace ‹_›
  · cases h
    exact .status_unlock i hplace
  · split at h
    · cases h
    · cases h
      exact .sample_lock i hplace ‹_›
  · cases h
    exact .sample_unlock i hplace
  · cases h
    exact .kill i _ hplace
  · split at h
    next hagain =>
      cases h
      rw [← hagain.2] at hplace
      exact .poll_again i _ _ _ hplace hagain.1
    next =>
      cases h
      exact .poll_end i _ _ _ _ hplace ‹_›
  · split at h
    · cases h
    · cases h
      exact .poll_lock i _ _ _ hplace ‹_›
  · cases h
    exact .poll_unlock i _ _ _ hplace
  · cases h
    exact .client_next i _ _ hplace
  · cases h

theorem step_sound (h : step s a = some s') : s.exited = false ∧ Step s a s' := by
  unfold step at h
  split at h
  · cases h
  next hexited =>
    refine ⟨by simpa using hexited, ?_⟩
    cases a with
    | raise signo =>
        cases h
        exact .raise signo
    | main act => exact mainStep_sound rfl h
    | sigwait signo => exact sigwaitStep_sound h
    | signal_thread => exact signalStep_sound rfl h
    | client i act =>
        obtain ⟨place, hplace, h⟩ := Option.bind_eq_some_iff.mp h
        exact clientStep_sound hplace h

end SnappCollector.Daemon
