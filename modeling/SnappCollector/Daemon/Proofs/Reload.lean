import SnappCollector.Config.Proofs.InitConfig
import SnappCollector.Daemon.Reload

/-!
# A failed reload leaves the collection alone

A reload that does not install its configuration does no harm, unless a step of it ends
the process or the current configuration cannot be deleted.  For each step the condition
says what it has to find.
-/

namespace SnappCollector.Daemon

open CLib Data SnappCollector.Config

variable {σ : Type}

/-! ## The processes of the loop -/

/-- The processes that the loop of `main` starts a round with: the first configuration is
initialized, and rounds come back. -/
inductive InLoop (σ : Type) : Process → Prop where
  | start (address : Nat) {answers : InitAnswers σ} {fuel : Nat} {config : Loaded_config} {s : σ}
      {collectors : List Threads}
      (hinit : init_config answers fuel config s = .returned collectors) :
      InLoop σ ⟨⟨address, collectors⟩, none⟩
  | reload {p p' : Process} {answers : ReloadAnswers σ} {fuel : Nat} {installed : Bool}
      (h : InLoop σ p) (hrun : reload answers fuel p = (.returned installed, p')) : InLoop σ p'

/-- The classes of the current configuration are at work. -/
def Process.Running (p : Process) : Prop :=
  ∀ threads ∈ p.current_config.collectors, threads.main_thread = true

theorem main_thread_of_init_config {answers : InitAnswers σ} {fuel : Nat} {config : Loaded_config}
    {s : σ} {collectors : List Threads}
    (hinit : init_config answers fuel config s = .returned collectors) :
    ∀ threads ∈ collectors, threads.main_thread = true := by
  unfold init_config at hinit
  obtain ⟨_, -, hinit⟩ := Course.bind_eq_returned.mp hinit
  obtain ⟨_, -, hinit⟩ := Course.bind_eq_returned.mp hinit
  obtain ⟨mapped, -, hinit⟩ := Course.bind_eq_returned.mp hinit
  intro threads hthreads
  obtain ⟨cls, -, hcls⟩ := Course.exists_of_mapM_returned hinit hthreads
  unfold initialize_class at hcls
  obtain ⟨_, -, hcls⟩ := Course.bind_eq_returned.mp hcls
  obtain ⟨_, -, hlast⟩ := Course.bind_eq_returned.mp hcls
  cases hlast
  rfl

/-! ## Destructors -/

section

variable {joined : Nat → Bool}

theorem finalize_classes_eq_true (i : Nat) (classes : List Threads) :
    (finalize_classes joined i classes).1 = true ↔
      ∀ j < classes.length, joined (i + j) = true := by
  induction classes generalizing i with
  | nil => simp [finalize_classes]
  | cons threads rest ih =>
      unfold finalize_classes
      rw [List.length_cons]
      by_cases hjoined : joined i = true
      · rw [if_pos hjoined, ih]
        constructor
        · intro hrest j hj
          cases j with
          | zero => exact hjoined
          | succ j =>
              have hj := hrest j (by omega)
              rwa [Nat.add_right_comm] at hj
        · intro hall j hj
          have hj := hall (j + 1) (by omega)
          rwa [← Nat.add_assoc, Nat.add_right_comm] at hj
      · rw [if_neg hjoined]
        simp only [Bool.false_eq_true, false_iff, not_forall]
        exact ⟨0, by omega, hjoined⟩

theorem length_finalize_classes_le (i : Nat) (classes : List Threads) :
    (finalize_classes joined i classes).2.length ≤ classes.length := by
  induction classes generalizing i with
  | nil => exact le_rfl
  | cons threads rest ih =>
      unfold finalize_classes
      split
      · exact (ih (i + 1)).trans (Nat.le_succ _)
      · exact le_rfl

/-- A destructor that does not come back has ended a main thread. -/
theorem finalize_classes_ne (i : Nat) {classes : List Threads}
    (hrunning : ∀ threads ∈ classes, threads.main_thread = true)
    (hblocked : (finalize_classes joined i classes).1 = false) :
    (finalize_classes joined i classes).2 ≠ classes := by
  cases classes with
  | nil => cases hblocked
  | cons threads rest =>
      unfold finalize_classes
      split
      · intro heq
        have hle : (finalize_classes joined (i + 1) rest).2.length ≤ rest.length :=
          length_finalize_classes_le (i + 1) rest
        rw [heq, List.length_cons] at hle
        omega
      · intro heq
        have hended := congrArg Threads.main_thread (List.cons.inj heq).1
        rw [hrunning threads (List.mem_cons_self ..)] at hended
        cases hended

end

/-! ## One reload -/

/-- What a reload that did not install its configuration has left of the process. -/
structure Harmless (p : Process) (result : Course Death Bool × Process) : Prop where
  running : result.1.Survives
  current_config : result.2.current_config = p.current_config
  no_collectors : ∀ config, result.2.new_config = some config → config.collectors = []

structure ReloadReady (answers : ReloadAnswers σ) (fuel : Nat) (p : Process) : Prop where
  load : ∀ children, answers.load.file = .root children → Loadable answers.load fuel children
  init : ∀ config, load_config answers.load fuel = .returned config →
    InitReady answers.init fuel config answers.files
  deletion : ∀ config collectors, load_config answers.load fuel = .returned config →
    init_config answers.init fuel config answers.files = .returned collectors →
      ∀ i < p.current_config.collectors.length, answers.joined i = true

variable {answers : ReloadAnswers σ} {fuel : Nat} {p p' : Process}

theorem delete_new_created (new_config : Configuration) (hnew : new_config.collectors = []) :
    delete_new answers.joined new_config p = (.returned false, { p with new_config := none }) := by
  unfold delete_new
  rw [hnew]
  rfl

theorem install_new_eq (new_config : Configuration) :
    install_new answers.joined new_config p =
      if (finalize_classes answers.joined 0 p.current_config.collectors).1 then
        (.returned true, ⟨new_config, none⟩)
      else
        (.pending, ⟨{ p.current_config with
          collectors := (finalize_classes answers.joined 0 p.current_config.collectors).2 },
          some new_config⟩) := rfl

theorem harmless_created {course : Course Death Bool} {new_config : Option Configuration}
    (hsurvives : course.Survives)
    (hnew : ∀ config, new_config = some config → config.collectors = []) :
    Harmless p (course, { p with new_config }) := ⟨hsurvives, rfl, hnew⟩

theorem running_of_inLoop (h : InLoop σ p) : p.Running := by
  induction h with
  | start address hinit => exact main_thread_of_init_config hinit
  | @reload p p' answers fuel installed _ hrun ih =>
      unfold reload at hrun
      dsimp only at hrun
      split at hrun
      · cases hrun
      · cases hrun
      · rw [delete_new_created _ rfl] at hrun
        cases hrun
        exact ih
      next config _ =>
        split at hrun
        · cases hrun
        · cases hrun
        · rw [delete_new_created _ rfl] at hrun
          cases hrun
          exact ih
        next collectors hinit =>
          rw [install_new_eq] at hrun
          split at hrun
          · cases hrun
            exact main_thread_of_init_config hinit
          · cases hrun

theorem harmless_install_new (hrunning : p.Running) (new_config : Configuration)
    (created : Option Configuration) :
    ((install_new answers.joined new_config { p with new_config := created }).1 ≠ .returned true →
      Harmless p (install_new answers.joined new_config { p with new_config := created })) ↔
      ∀ i < p.current_config.collectors.length, answers.joined i = true := by
  have hdeleted : (finalize_classes answers.joined 0 p.current_config.collectors).1 = true ↔ _ :=
    finalize_classes_eq_true 0 p.current_config.collectors
  simp only [Nat.zero_add] at hdeleted
  rw [install_new_eq, ← hdeleted]
  dsimp only
  split
  next hall => simp [hall]
  next hblocked =>
    constructor
    · intro hkeeps
      have hsame := congrArg Configuration.collectors (hkeeps nofun).current_config
      exact absurd hsame (finalize_classes_ne 0 hrunning (Bool.not_eq_true _ ▸ hblocked))
    · intro hall
      exact absurd hall hblocked

theorem reloadReady_of_not_loaded
    (hload : ∀ config, load_config answers.load fuel ≠ .returned config) :
    ReloadReady answers fuel p ↔ (load_config answers.load fuel).Survives := by
  rw [survives_load_config]
  constructor
  · exact ReloadReady.load
  · intro hloadable
    exact ⟨hloadable, fun config hrun => absurd hrun (hload config),
      fun config _ hrun => absurd hrun (hload config)⟩

theorem reloadReady_of_loaded {config : Loaded_config}
    (hload : load_config answers.load fuel = .returned config) :
    ReloadReady answers fuel p ↔
      (init_config answers.init fuel config answers.files).Survives ∧
        ∀ collectors, init_config answers.init fuel config answers.files = .returned collectors →
          ∀ i < p.current_config.collectors.length, answers.joined i = true := by
  rw [survives_init_config (consistent_load_config hload)]
  constructor
  · intro hready
    exact ⟨hready.init config hload, fun collectors => hready.deletion config collectors hload⟩
  · rintro ⟨hinit, hdeletion⟩
    refine ⟨?_, fun config' hload' => ?_, fun config' collectors hload' => ?_⟩
    · apply survives_load_config.mp
      rw [hload]
      exact Course.survives_returned config
    · obtain rfl := Course.returned.inj (hload.symm.trans hload')
      exact hinit
    · obtain rfl := Course.returned.inj (hload.symm.trans hload')
      exact hdeletion collectors

/-- In every round of the loop, the reload installs its configuration or does no harm if
and only if its steps find what they need. -/
theorem harmless_iff (h : InLoop σ p) :
    ((reload answers fuel p).1 ≠ .returned true → Harmless p (reload answers fuel p)) ↔
      ReloadReady answers fuel p := by
  have hnew : ∀ config, some (⟨answers.address, []⟩ : Configuration) = some config →
      config.collectors = [] := fun config hconfig => by cases hconfig; rfl
  unfold reload
  dsimp only
  cases hload : load_config answers.load fuel with
  | died death =>
      rw [reloadReady_of_not_loaded (by simp [hload]), hload]
      simp only [Course.not_survives_died, iff_false]
      exact fun hkeeps => Course.not_survives_died death (hkeeps (by simp)).running
  | pending =>
      rw [reloadReady_of_not_loaded (by simp [hload]), hload]
      simp only [Course.survives_pending, iff_true]
      exact fun _ => harmless_created Course.survives_pending hnew
  | failed =>
      rw [reloadReady_of_not_loaded (by simp [hload]), hload, delete_new_created _ rfl]
      simp only [Course.survives_failed, iff_true]
      exact fun _ => harmless_created (Course.survives_returned false) (by simp)
  | returned config =>
      rw [reloadReady_of_loaded hload]
      dsimp only
      cases hinit : init_config answers.init fuel config answers.files with
      | died death =>
          simp only [Course.not_survives_died, false_and, iff_false]
          exact fun hkeeps => Course.not_survives_died death (hkeeps (by simp)).running
      | pending =>
          simp only [Course.survives_pending, true_and, reduceCtorEq, false_implies, implies_true,
            iff_true]
          exact fun _ => harmless_created Course.survives_pending hnew
      | failed =>
          rw [delete_new_created _ rfl]
          simp only [Course.survives_failed, true_and, reduceCtorEq, false_implies, implies_true,
            iff_true]
          exact fun _ => harmless_created (Course.survives_returned false) (by simp)
      | returned collectors =>
          simp only [Course.survives_returned, true_and, Course.returned.injEq, forall_eq']
          exact harmless_install_new (running_of_inLoop h) _ _

/-! ## A file without a password -/

def idle : Process := ⟨⟨0, []⟩, none⟩

def answersFor (file : XmlFile) : ReloadAnswers Unit where
  address := 1
  load :=
    { file
      memory := ⟨[], ⟨0, []⟩, ⟨[], [], [], [], [], [], []⟩⟩
      beyond := ⟨[], ⟨0, []⟩, ⟨[], [], [], [], [], [], []⟩⟩
      dbi_conn_new := fun _ => true
      dbi_conn_connect := fun _ _ => true
      start_transaction := true
      hosts := some []
      mapping_done := 0
      sequences := some []
      value := fun _ => none
      collections := fun _ _ => some []
      oids := fun _ => some []
      rras := fun _ => some []
      globals := some []
      commit := true }
  files := ()
  init :=
    { fs := ⟨fun _ _ => true, fun _ s => (none, s), fun _ => true, fun _ s => s, fun _ => true⟩
      stack := 1
      tables :=
        { agent := fun _ => ⟨fun _ => none, fun _ => false, fun _ _ _ => .other⟩
          sem_wait := fun _ => true
          pthread_create := fun _ => true }
      pthread_create := fun _ _ => true }
  joined := fun _ => true

def example_file (attributes : List (CStr × CStr)) : XmlFile :=
  .root
    [⟨"name".toList, [], some "SQL-SNAPP".toList⟩,
      ⟨"db".toList, [("type".toList, "mysql".toList), ("username".toList, "db-root".toList),
        ("password".toList, "secret".toList)], some []⟩,
      ⟨"control".toList, ("port".toList, "9967".toList) :: attributes, some []⟩]

def example_config : XmlFile := example_file [("enable_password".toList, "moresecrets".toList)]

theorem starts_idle : ∃ config,
    load_config (answersFor example_config).load 1 = .returned config ∧
      init_config (answersFor example_config).init 1 config () = .returned [] :=
  ⟨_, rfl, rfl⟩

theorem inLoop_idle : InLoop Unit idle := by
  obtain ⟨config, -, hinit⟩ := starts_idle
  exact .start 0 hinit

theorem harmless_unreadable :
    ((reload (answersFor .unreadable) 1 idle).1 ≠ .returned true →
      Harmless idle (reload (answersFor .unreadable) 1 idle)) ↔
      ReloadReady (answersFor .unreadable) 1 idle := harmless_iff inLoop_idle

/-- The missing attribute ends the process. -/
theorem reload_without_password :
    InLoop Unit idle ∧ (reload (answersFor (example_file [])) 1 idle).1 = .died .abort ∧
      ¬((reload (answersFor (example_file [])) 1 idle).1 ≠ .returned true →
        Harmless idle (reload (answersFor (example_file [])) 1 idle)) := by
  have hdied : (reload (answersFor (example_file [])) 1 idle).1 = .died .abort := rfl
  refine ⟨inLoop_idle, hdied, fun hkeeps => ?_⟩
  have hharmless := hkeeps (by rw [hdied]; exact nofun)
  exact absurd hharmless.running (by rw [hdied]; exact Course.not_survives_died _)

end SnappCollector.Daemon
