import SnappCollector.Daemon.Proofs.Ownership

/-!
# No configuration is lost

Every load makes a configuration.  It is deleted when the load fails, when the next one takes its
place, or at the end.  Over any run, each of them is deleted once or still held: none is leaked
and none deleted twice.
-/

namespace SnappCollector.Daemon

open Machine

def MainPlace.building : MainPlace → Bool
  | .load_config | .init_config | .delete_new | .config_lock | .delete_current
  | .deleting_current | .install => true
  | _ => false

/-- The main thread has deleted the current configuration and has not put another in its place. -/
def MainPlace.gone : MainPlace → Bool
  | .install | .terminated => true
  | _ => false

/-- The load whose configuration the step deletes. -/
def deleted (s : State) (a : Action) : List Nat :=
  if a = .main .go then
    match s.main with
    | .delete_new => [s.new_config.load]
    | .deleting_current | .deleting => [s.current_config.load]
    | _ => []
  else []

def State.held (s : State) : List Nat :=
  (if s.current_config.phase = .deleted then [] else [s.current_config.load]) ++
    if s.main.building then [s.new_config.load] else []

/-- The configurations that were made are those that were deleted and those that are held. -/
structure Accounted (ds : List Nat) (s : State) : Prop where
  once : ∀ load, ds.count load + s.held.count load = if load ≤ s.loads then 1 else 0
  gone : s.current_config.phase = .deleted ↔ s.main.gone = true
  building : s.main.building = true →
    s.new_config.load = s.loads ∧ s.new_config.phase ≠ .deleted ∧ ∀ m ∈ s.installed, m < s.loads
  installed : s.installed.Pairwise (· < ·) ∧ ∀ m ∈ s.installed, m ≤ s.loads
  current : s.current_config.load = s.installed.getLastD 0

theorem accounted_init (k : Nat) : Accounted [] (State.init k) where
  once load := by
    by_cases hload : load = 0
    · simp [hload, State.held, State.init, MainPlace.building]
    · have hne : ¬(0 : Nat) = load := fun heq => hload heq.symm
      simp [hload, hne, State.held, State.init, MainPlace.building]
  gone := by simp [State.init, MainPlace.gone]
  building h := by cases h
  installed := by simp [State.init]
  current := rfl

section Step

variable {ds : List Nat} {s s' : State} {a : Action}

theorem Accounted.frame (h : Accounted ds s) (hcurrent : s'.current_config = s.current_config)
    (hnew : s'.new_config.load = s.new_config.load)
    (hphase : s.new_config.phase ≠ .deleted → s'.new_config.phase ≠ .deleted)
    (hloads : s'.loads = s.loads) (hinstalled : s'.installed = s.installed)
    (hbuilding : s'.main.building = s.main.building) (hgone : s'.main.gone = s.main.gone) :
    Accounted ds s' where
  once load := by
    rw [State.held, hcurrent, hbuilding, hnew, hloads]
    exact h.once load
  gone := by
    rw [hcurrent, hgone]
    exact h.gone
  building hb := by
    rw [hbuilding] at hb
    obtain ⟨hload, hnot, hless⟩ := h.building hb
    rw [hnew, hloads, hinstalled]
    exact ⟨hload, hphase hnot, hless⟩
  installed := by
    rw [hinstalled, hloads]
    exact h.installed
  current := by
    rw [hcurrent, hinstalled]
    exact h.current

theorem building_cond_signal : s.cond_signal.main.building = s.main.building := by
  rw [cond_signal_main]
  split
  next hwaiting => rw [hwaiting]; rfl
  next => rfl

theorem gone_cond_signal : s.cond_signal.main.gone = s.main.gone := by
  rw [cond_signal_main]
  split
  next hwaiting => rw [hwaiting]; rfl
  next => rfl

theorem deleted_of_exit (hexited : s.exited = false)
    (hs : step s a = some { s with exited := true }) : deleted s a = [] := by
  unfold deleted
  split
  next ha =>
    subst ha
    split <;> simp_all [step, mainStep, State.mk.injEq]
  next => rfl

theorem deleted_of_other (ha : a ≠ .main .go) : deleted s a = [] := if_neg ha

theorem deleted_main (hplace : s.main ≠ .delete_new ∧ s.main ≠ .deleting_current ∧
    s.main ≠ .deleting) (a : Action) : deleted s a = [] := by
  unfold deleted
  split
  · split <;> simp_all
  · rfl

theorem Accounted.main_frame (h : Accounted ds s) (a : Action)
    (hplace : s.main ≠ .delete_new ∧ s.main ≠ .deleting_current ∧ s.main ≠ .deleting)
    (hcurrent : s'.current_config = s.current_config)
    (hnew : s'.new_config.load = s.new_config.load)
    (hphase : s.new_config.phase ≠ .deleted → s'.new_config.phase ≠ .deleted)
    (hloads : s'.loads = s.loads) (hinstalled : s'.installed = s.installed)
    (hbuilding : s'.main.building = s.main.building) (hgone : s'.main.gone = s.main.gone) :
    Accounted (ds ++ deleted s a) s' := by
  rw [deleted_main hplace a, List.append_nil]
  exact h.frame hcurrent hnew hphase hloads hinstalled hbuilding hgone

theorem Accounted.new (h : Accounted ds s) (hplace : s.main = .new_config) {address late : Nat} :
    Accounted ds { s with
      new_config := ⟨address, s.loads + 1, .created⟩, loads := s.loads + 1, late
      main := .load_config } := by
  have hgone : s.current_config.phase ≠ .deleted := by
    rw [Ne, h.gone, hplace]
    simp [MainPlace.gone]
  refine ⟨fun load => ?_, ?_, fun _ => ⟨rfl, by simp, fun m hm => ?_⟩, ?_, h.current⟩
  · have honce := h.once load
    simp only [State.held, hplace, MainPlace.building, List.append_nil, Bool.false_eq_true,
      if_true, if_false, List.count_append, List.count_singleton, beq_iff_eq] at honce ⊢
    by_cases hload : s.loads + 1 = load
    · have hold : ¬load ≤ s.loads := by omega
      rw [if_neg hold] at honce
      rw [if_pos hload, if_pos (Nat.le_of_eq hload.symm)]
      omega
    · rw [if_neg hload]
      have hiff : load ≤ s.loads + 1 ↔ load ≤ s.loads := by omega
      simp only [hiff]
      omega
  · simp [hgone, MainPlace.gone]
  · exact Nat.lt_succ_of_le (h.installed.2 m hm)
  · exact ⟨h.installed.1, fun m hm => Nat.le_succ_of_le (h.installed.2 m hm)⟩

theorem Accounted.delete_new (h : Accounted ds s) (hplace : s.main = .delete_new) :
    Accounted (ds ++ deleted s (.main .go))
      { s with new_config := { s.new_config with phase := .deleted }, main := .lock } := by
  have hdeleted : deleted s (.main .go) = [s.new_config.load] := by simp [deleted, hplace]
  have hgone : s.current_config.phase ≠ .deleted := by
    rw [Ne, h.gone, hplace]
    simp [MainPlace.gone]
  refine ⟨fun load => ?_, ?_, fun hb => ?_, h.installed, h.current⟩
  · have honce := h.once load
    rw [hdeleted]
    simp only [State.held, hplace, MainPlace.building, List.append_nil, Bool.false_eq_true,
      if_true, if_false, List.count_append] at honce ⊢
    omega
  · simp [hgone, MainPlace.gone]
  · cases hb

theorem Accounted.delete (h : Accounted ds s) {place : MainPlace}
    (hplace : s.main = .delete_current ∧ place = .deleting_current ∨
      s.main = .done ∧ place = .deleting) :
    Accounted (ds ++ deleted s (.main .go))
      { s with current_config := { s.current_config with phase := .deleting }, main := place } := by
  have hdeleted : deleted s (.main .go) = [] := by
    obtain ⟨hmain, -⟩ | ⟨hmain, -⟩ := hplace <;> simp [deleted, hmain]
  have hbuilding : place.building = s.main.building := by
    obtain ⟨hmain, rfl⟩ | ⟨hmain, rfl⟩ := hplace <;> rw [hmain] <;> rfl
  have hgone : place.gone = false ∧ s.main.gone = false := by
    obtain ⟨hmain, rfl⟩ | ⟨hmain, rfl⟩ := hplace <;> rw [hmain] <;> exact ⟨rfl, rfl⟩
  have hphase : s.current_config.phase ≠ .deleted := by
    rw [Ne, h.gone, hgone.2]
    simp
  refine ⟨fun load => ?_, ?_, fun hb => ?_, h.installed, h.current⟩
  · have honce := h.once load
    rw [hdeleted, List.append_nil]
    simpa [State.held, hbuilding, hphase] using honce
  · simp [hgone.1]
  · exact h.building (hbuilding ▸ hb)

theorem Accounted.deleted_current (h : Accounted ds s) {place : MainPlace}
    (hplace : s.main = .deleting_current ∧ place = .install ∨
      s.main = .deleting ∧ place = .terminated) :
    Accounted (ds ++ deleted s (.main .go))
      { s with current_config := { s.current_config with phase := .deleted }, main := place } := by
  have hdeleted : deleted s (.main .go) = [s.current_config.load] := by
    obtain ⟨hmain, -⟩ | ⟨hmain, -⟩ := hplace <;> simp [deleted, hmain]
  have hbuilding : place.building = s.main.building := by
    obtain ⟨hmain, rfl⟩ | ⟨hmain, rfl⟩ := hplace <;> rw [hmain] <;> rfl
  have hgone : place.gone = true ∧ s.main.gone = false := by
    obtain ⟨hmain, rfl⟩ | ⟨hmain, rfl⟩ := hplace <;> rw [hmain] <;> exact ⟨rfl, rfl⟩
  have hphase : s.current_config.phase ≠ .deleted := by
    rw [Ne, h.gone, hgone.2]
    simp
  refine ⟨fun load => ?_, ?_, fun hb => ?_, h.installed, h.current⟩
  · have honce := h.once load
    rw [hdeleted]
    simp only [State.held, hbuilding, hphase, if_true, if_false, List.count_append,
      List.nil_append] at honce ⊢
    omega
  · simp [hgone.1]
  · exact h.building (hbuilding ▸ hb)

theorem Accounted.install (h : Accounted ds s) (hplace : s.main = .install) :
    Accounted ds { s with
      current_config := s.new_config, installed := s.installed ++ [s.new_config.load]
      main := .config_unlock } := by
  obtain ⟨hload, hphase, hless⟩ := h.building (by rw [hplace]; rfl)
  have hgone : s.current_config.phase = .deleted := h.gone.mpr (by rw [hplace]; rfl)
  refine ⟨fun load => ?_, ?_, fun hb => ?_, ⟨?_, fun m hm => ?_⟩, ?_⟩
  · have honce := h.once load
    simpa [State.held, hplace, hgone, hphase, MainPlace.building] using honce
  · simp [hphase, MainPlace.gone]
  · cases hb
  · rw [List.pairwise_append]
    refine ⟨h.installed.1, List.pairwise_singleton .., fun m hm m' hm' => ?_⟩
    rw [List.mem_singleton.mp hm', hload]
    exact hless m hm
  · rcases List.mem_append.mp hm with hold | hnew
    · exact h.installed.2 m hold
    · have hlast : m = s.loads := by rw [List.mem_singleton.mp hnew, hload]
      exact Nat.le_of_eq hlast
  · simp

theorem accounted_step (h : Accounted ds s) (hs : step s a = some s') :
    Accounted (ds ++ deleted s a) s' := by
  obtain ⟨hexited, hstep⟩ := step_sound hs
  cases hstep with
  | main_lock hplace | main_wait hplace | main_timeout hplace | main_spurious hplace
  | main_relock _ hplace | main_timed_out hplace | main_done hplace | main_reload hplace
  | main_unlock hplace | main_config_lock hplace | main_config_unlock hplace =>
      exact h.main_frame _ (by simp [hplace]) rfl rfl id rfl rfl (by rw [hplace]; rfl)
        (by rw [hplace]; rfl)
  | main_loaded hplace | main_initialized hplace =>
      exact h.main_frame _ (by simp [hplace]) rfl rfl (by simp) rfl rfl (by rw [hplace]; rfl)
        (by rw [hplace]; rfl)
  | main_failed hplace =>
      rcases hplace with hplace | hplace <;>
        exact h.main_frame _ (by simp [hplace]) rfl rfl id rfl rfl (by rw [hplace]; rfl)
          (by rw [hplace]; rfl)
  | main_new address hplace hfresh =>
      rw [deleted_of_other (by simp), List.append_nil]
      exact h.new hplace
  | main_delete_new hplace => exact h.delete_new hplace
  | main_delete hplace | main_delete_done hplace => exact h.delete (by simp [hplace])
  | main_deleted hplace | main_deleted_done hplace => exact h.deleted_current (by simp [hplace])
  | main_install hplace =>
      rw [deleted_main (by simp [hplace]) _, List.append_nil]
      exact h.install hplace
  | exit a =>
      rw [deleted_of_exit hexited hs, List.append_nil]
      exact h.frame rfl rfl id rfl rfl rfl rfl
  | hup_signal | term_signal =>
      rw [deleted_of_other (by simp), List.append_nil]
      exact h.frame (cond_signal_current_config s) (by rw [cond_signal_new_config])
        (by simp) (cond_signal_loads s) (cond_signal_installed s) building_cond_signal
        gone_cond_signal
  | _ =>
      rw [deleted_of_other (by simp), List.append_nil]
      exact h.frame rfl rfl id rfl rfl rfl rfl

/-- In every run of the daemon, whatever the signals, the failures and the clients: each
configuration that a load made is deleted once or held, and never both; the loads that are
installed come one after the other, and the current configuration is that of the last one. -/
theorem accounted_of_run {k : Nat} {acts : List Action}
    (hrun : run step (State.init k) acts = some s) :
    Accounted (collect step deleted (State.init k) acts) s := by
  have hall := run_collect deleted Accounted hrun (accounted_init k)
    fun _ _ _ _ hinv hs => accounted_step hinv hs
  rwa [List.nil_append] at hall

end Step

def three_configurations : List Action :=
  wait_actions ++ [.main .timeout] ++ new_actions 1 ++ [.main .failed, .main .go] ++
    wait_actions ++ [.main .timeout] ++ new_actions 1 ++ load_actions ++ install_actions ++
    wait_actions ++ term_actions ++ done_actions ++ [.main .go]

theorem accounted_three_configurations :
    ∃ s : State, s.main = .terminated ∧ s.installed = [2] ∧ Accounted [1, 0, 2] s := by
  obtain ⟨s, hrun, hmain, hinstalled⟩ : ∃ s : State,
      run step (State.init 0) three_configurations = some s ∧ s.main = .terminated ∧
        s.installed = [2] :=
    ⟨_, rfl, rfl, rfl⟩
  have hdeleted : collect step deleted (State.init 0) three_configurations = [1, 0, 2] := by decide
  have hall := accounted_of_run hrun
  rw [hdeleted] at hall
  exact ⟨s, hmain, hinstalled, hall⟩

end SnappCollector.Daemon
