import SnappCollector.Daemon.Proofs.Termination
import SnappCollector.Machine.Mutex

/-!
# The current configuration and its readers

`config_mutex` guards `current_config`: the workers read through it inside the lock, and a
reload deletes and replaces it inside the lock.  The deletion behind `done:` takes no lock.
-/

namespace SnappCollector.Daemon

open Machine

def MainPlace.inside : MainPlace → Bool
  | .delete_current | .deleting_current | .install | .config_unlock => true
  | .lock | .locked | .waiting | .woken _ | .returned _ | .unlock | .new_config | .load_config
  | .init_config | .delete_new | .config_lock | .done | .deleting | .terminated => false

def ClientPlace.inside : ClientPlace → Bool
  | .status | .sample | .poll_read _ _ _ => true
  | .idle | .status_lock | .sample_lock | .kill _ | .poll _ _ _ _ | .poll_lock _ _ _
  | .answered _ _ => false

def State.inside (s : State) : Holder → Bool
  | .main => s.main.inside
  | .signal_thread => false
  | .client i => s.client[i]?.any ClientPlace.inside

/-- The current configuration has been deleted, or is being deleted, and not been replaced. -/
def MainPlace.replacing : MainPlace → Bool
  | .deleting_current | .install => true
  | .lock | .locked | .waiting | .woken _ | .returned _ | .unlock | .new_config | .load_config
  | .init_config | .delete_new | .config_lock | .delete_current | .config_unlock | .done
  | .deleting | .terminated => false

def MainPlace.has_new : MainPlace → Bool
  | .config_lock | .delete_current | .deleting_current | .install => true
  | .lock | .locked | .waiting | .woken _ | .returned _ | .unlock | .new_config | .load_config
  | .init_config | .delete_new | .config_unlock | .done | .deleting | .terminated => false

/-- The step is not the deletion of the current configuration behind `done:`. -/
def keeps_current (s : State) (a : Action) : Bool :=
  !(s.main = .done && a = .main .go)

/-! ## Who is inside -/

section

variable {s s' : State} {a : Action}

theorem State.inside_of_main (hmain : s'.main.inside = true → s.main.inside = true)
    (hclient : s'.client = s.client) (t : Holder) : s'.inside t = true → s.inside t = true := by
  cases t with
  | main => exact hmain
  | signal_thread => exact id
  | client i => simp [State.inside, hclient]

theorem State.inside_of_client {i : Nat} {place place' : ClientPlace}
    (hplace : s.client[i]? = some place) (hinside : place'.inside = true → place.inside = true)
    (hmain : s'.main = s.main) (hclient : s'.client = s.client.set i place') (t : Holder) :
    s'.inside t = true → s.inside t = true := by
  cases t with
  | main => simp [State.inside, hmain]
  | signal_thread => exact id
  | client j =>
      obtain ⟨hlt, hget⟩ := List.getElem?_eq_some_iff.mp hplace
      by_cases heq : i = j
      · subst heq
        simpa [State.inside, hclient, hlt, hget] using hinside
      · simp [State.inside, hclient, heq]

theorem State.outside_of_client {i : Nat} {place place' : ClientPlace}
    (hplace : s.client[i]? = some place) (houtside : place'.inside = false)
    (hclient : s'.client = s.client.set i place') : s'.inside (.client i) = false := by
  obtain ⟨hlt, -⟩ := List.getElem?_eq_some_iff.mp hplace
  simpa [State.inside, hclient, hlt] using houtside

theorem inside_of_client_ne {i : Nat} {place : ClientPlace} (hmain : s'.main = s.main)
    (hclient : s'.client = s.client.set i place) (t : Holder) (hne : t ≠ .client i) :
    s'.inside t = true → s.inside t = true := by
  cases t with
  | main => simp [State.inside, hmain]
  | signal_thread => exact id
  | client j =>
      have hij : i ≠ j := fun heq => hne (heq ▸ rfl)
      simp [State.inside, hclient, hij]

theorem inside_of_main_ne (hclient : s'.client = s.client) (t : Holder) (hne : t ≠ .main) :
    s'.inside t = true → s.inside t = true := by
  cases t with
  | main => exact absurd rfl hne
  | signal_thread => exact id
  | client i => simp [State.inside, hclient]

theorem inside_of_cond_signal (h : s.cond_signal.main.inside = true) : s.main.inside = true := by
  rw [cond_signal_main] at h
  split at h
  next => cases h
  next => exact h

def Guarded (s : State) : Prop := Guards s.config_mutex s.inside

theorem guarded_init (k : Nat) : Guarded (State.init k) := by
  intro t ht
  cases t with
  | main => cases ht
  | signal_thread => cases ht
  | client i =>
      obtain ⟨place, hplace, hinside⟩ := (Option.any_eq_true _ _).mp ht
      have hidle := List.eq_of_mem_replicate (List.mem_of_getElem? hplace)
      rw [hidle] at hinside
      cases hinside

theorem Guarded.step (h : Guarded s) (hstep : Step s a s') : Guarded s' := by
  have hheld : ∀ t, s.inside t = true → Guards (some t) s.inside := by
    intro t ht
    rw [← h t ht]
    exact h
  cases hstep with
  -- the lock is taken
  | main_config_lock hplace hfree =>
      rw [Guarded, hfree] at h
      exact h.acquire (inside_of_main_ne rfl)
  | status_lock i hplace hfree | sample_lock i hplace hfree | poll_lock i _ _ _ hplace hfree =>
      rw [Guarded, hfree] at h
      exact h.acquire (inside_of_client_ne rfl rfl)
  -- the lock is given back
  | main_config_unlock hplace =>
      have hin := hheld .main (by rw [State.inside, hplace]; rfl)
      exact hin.release rfl (State.inside_of_main (by simp [MainPlace.inside]) rfl)
  | status_unlock i hplace | sample_unlock i hplace | poll_unlock i _ _ _ hplace =>
      have hin := hheld (.client i) (by rw [State.inside, hplace]; rfl)
      exact hin.release (State.outside_of_client hplace rfl rfl)
        (State.inside_of_client hplace (by simp [ClientPlace.inside]) rfl rfl)
  -- moves on one side of it
  | main_lock hplace | main_wait hplace | main_timeout hplace | main_spurious hplace
  | main_relock _ hplace | main_timed_out hplace | main_done hplace | main_reload hplace
  | main_unlock hplace | main_new _ hplace | main_loaded hplace | main_initialized hplace
  | main_failed hplace | main_delete_new hplace | main_delete hplace | main_deleted hplace
  | main_install hplace | main_delete_done hplace | main_deleted_done hplace =>
      exact h.frame (State.inside_of_main (by simp [hplace, MainPlace.inside]) rfl)
  | hup_signal | term_signal =>
      rw [Guarded, cond_signal_config_mutex]
      exact h.frame (State.inside_of_main inside_of_cond_signal (cond_signal_client s))
  | client_call i _ place hplace hcall =>
      refine h.frame (State.inside_of_client hplace ?_ rfl rfl)
      obtain rfl | rfl := hcall <;> simp [ClientPlace.inside]
  | kill i _ hplace | poll_again i _ _ _ hplace | poll_end i _ _ _ _ hplace
  | client_next i _ _ hplace =>
      exact h.frame (State.inside_of_client hplace (by simp [ClientPlace.inside]) rfl rfl)
  | raise | exit | exit_by_signal | hup | hup_lock | hup_unlock | term | term_test | term_set =>
      exact h.frame (State.inside_of_main id rfl)

end

/-! ## What the readers find -/

structure Owned (s : State) : Prop where
  guarded : Guarded s
  current : s.main.replacing = false → s.current_config.phase = .initialized
  new : s.main.has_new = true → s.new_config.phase = .initialized
  not_deleting : s.main ≠ .deleting

section

variable {s s' : State} {a : Action}

theorem owned_init (k : Nat) : Owned (State.init k) where
  guarded := guarded_init k
  current _ := rfl
  new h := by cases h
  not_deleting h := by cases h

theorem replacing_cond_signal : s.cond_signal.main.replacing = s.main.replacing := by
  rw [cond_signal_main]
  split
  next hplace => rw [hplace]; rfl
  next => rfl

theorem has_new_cond_signal : s.cond_signal.main.has_new = s.main.has_new := by
  rw [cond_signal_main]
  split
  next hplace => rw [hplace]; rfl
  next => rfl

theorem Owned.current_step (h : Owned s) (hok : keeps_current s a = true) (hstep : Step s a s')
    (hmain : s'.main.replacing = false) : s'.current_config.phase = .initialized := by
  cases hstep with
  | main_install hplace => exact h.new (by rw [hplace]; rfl)
  | main_delete | main_deleted => cases hmain
  | main_delete_done hplace =>
      rw [keeps_current, hplace] at hok
      cases hok
  | main_deleted_done hplace => exact absurd hplace h.not_deleting
  | main_lock hplace | main_wait hplace | main_timeout hplace | main_spurious hplace
  | main_relock _ hplace | main_timed_out hplace | main_done hplace | main_reload hplace
  | main_unlock hplace | main_new _ hplace | main_loaded hplace | main_initialized hplace
  | main_delete_new hplace | main_config_lock hplace | main_config_unlock hplace =>
      exact h.current (by rw [hplace]; rfl)
  | main_failed hplace =>
      obtain hplace | hplace := hplace <;> exact h.current (by rw [hplace]; rfl)
  | hup_signal | term_signal =>
      rw [cond_signal_current_config]
      exact h.current (replacing_cond_signal.symm.trans hmain)
  | _ => exact h.current hmain

theorem Owned.new_step (h : Owned s) (hstep : Step s a s') (hmain : s'.main.has_new = true) :
    s'.new_config.phase = .initialized := by
  cases hstep with
  | main_initialized => rfl
  | main_config_lock hplace | main_delete hplace | main_deleted hplace =>
      exact h.new (by rw [hplace]; rfl)
  | main_lock | main_wait | main_timeout | main_spurious | main_relock | main_timed_out
  | main_done | main_reload | main_unlock | main_new | main_loaded | main_failed
  | main_delete_new | main_install | main_config_unlock | main_delete_done
  | main_deleted_done => cases hmain
  | hup_signal | term_signal =>
      rw [cond_signal_new_config]
      exact h.new (has_new_cond_signal.symm.trans hmain)
  | _ => exact h.new hmain

theorem Owned.not_deleting_step (h : Owned s) (hok : keeps_current s a = true)
    (hstep : Step s a s') : s'.main ≠ .deleting := by
  cases hstep with
  | main_delete_done hplace =>
      rw [keeps_current, hplace] at hok
      cases hok
  | main_lock | main_wait | main_timeout | main_spurious | main_relock | main_timed_out
  | main_done | main_reload | main_unlock | main_new | main_loaded | main_initialized
  | main_failed | main_delete_new | main_config_lock | main_delete | main_deleted | main_install
  | main_config_unlock | main_deleted_done => exact nofun
  | hup_signal | term_signal =>
      rw [cond_signal_main]
      split
      next => exact nofun
      next => exact h.not_deleting
  | _ => exact h.not_deleting

theorem Owned.step (h : Owned s) (hok : keeps_current s a = true) (hstep : Step s a s') :
    Owned s' where
  guarded := h.guarded.step hstep
  current := h.current_step hok hstep
  new := h.new_step hstep
  not_deleting := h.not_deleting_step hok hstep

/-- While the main thread is not inside the lock, the current configuration is complete. -/
theorem Owned.initialized (h : Owned s) (hmain : s.main.inside = false) :
    s.current_config.phase = .initialized := by
  apply h.current
  cases hplace : s.main with
  | deleting_current | install =>
      rw [hplace] at hmain
      cases hmain
  | _ => rfl

/-- Without the deletion behind `done:`, `send_status` only reads a complete configuration,
and whoever takes `config_mutex` finds one. -/
theorem initialized_of_keeps_current {k : Nat}
    (h : Reaches step (fun s a => keeps_current s a = true) (State.init k) s) :
    (∀ i : Nat, s.client[i]? = some ClientPlace.status → s.current_config.phase = .initialized) ∧
      (s.config_mutex = none → s.exited = false → s.current_config.phase = .initialized) := by
  have howned : Owned s :=
    h.invariant (owned_init k) fun _ _ _ hinv hok hs => hinv.step hok (step_sound hs).2
  have hguards : Guards s.config_mutex s.inside := howned.guarded
  refine ⟨fun i hi => ?_, fun hfree _ => ?_⟩
  · have hin : s.inside (.client i) = true := by
      rw [State.inside, hi]
      rfl
    have hmain : s.inside .main = false := hguards.outside hin nofun
    exact howned.initialized hmain
  · rw [hfree] at hguards
    have hmain : s.inside .main = false := hguards.outside_of_free .main
    exact howned.initialized hmain

end

/-! ## A run of each kind -/

def status_actions : List Action := [.client 0 .send_status, .client 0 .go]

theorem initialized_after_reload : ∃ s : State, s.client[0]? = some ClientPlace.status ∧
    (∀ i : Nat, s.client[i]? = some ClientPlace.status → s.current_config.phase = .initialized) ∧
      (s.config_mutex = none → s.exited = false → s.current_config.phase = .initialized) := by
  have hreach : Reaches step (fun s a => keeps_current s a = true) (State.init 1)
      (after 1 (reload_run ++ status_actions)) :=
    reaches_after (by decide)
  exact ⟨_, by decide, initialized_of_keeps_current hreach⟩

def done_actions : List Action := [.main .go, .main .go, .main .go]

/-- A worker is in `send_status` while the main thread deletes the configuration. -/
theorem deleted_in_status :
    (∃ s : State, Reachable step (State.init 1) s ∧ s.client[0]? = some ClientPlace.status ∧
      s.current_config.phase = .deleting) ∧
    ∃ s : State, Reachable step (State.init 1) s ∧ s.config_mutex = none ∧ s.exited = false ∧
      s.current_config.phase = .deleted :=
  ⟨⟨after 1 (wait_actions ++ status_actions ++ term_actions ++ done_actions),
      reachable_after (by decide),
      by decide, by decide⟩,
    ⟨after 1 (wait_actions ++ term_actions ++ done_actions ++ [.main .go]),
      reachable_after (by decide),
      by decide, by decide, by decide⟩⟩

end SnappCollector.Daemon
