import SnappCollector.Config.InitConfig
import SnappCollector.Config.Proofs.Consistent
import SnappCollector.Config.Proofs.RrdFiles
import SnappCollector.Hosts.Proofs.OidTable

/-!
# Where initializing a configuration ends the process

The files and the tables have conditions of their own, and every thread has to be created.
The mapping of the suffixes always comes back.
-/

namespace SnappCollector.Config

open CLib Collection Data Hosts

variable {σ : Type}

/-! ## The mapping -/

section

variable {config : Loaded_config} {host_table : Host_Info_Table}

theorem length_of_load_host_tables {answers : TableAnswers} {fuel : Nat}
    {host_table' : Host_Info_Table}
    (hrun : load_host_tables answers fuel host_table = .returned host_table') :
    host_table.host.length ≤ host_table'.host.length := by
  unfold load_host_tables at hrun
  obtain ⟨_, -, hrun⟩ := Course.bind_eq_returned.mp hrun
  obtain ⟨host, -, hlast⟩ := Course.bind_eq_returned.mp hrun
  cases hlast
  show _ ≤ (host ++ host_table.host.drop host.length).length
  rw [List.length_append, List.length_drop]
  omega

/-- The tables that a host has do not matter for it. -/
theorem map_isSome_of_consistent
    (h : Consistent config.oid_mapping_sequence_db config.host_table.host config.hosts)
    (hlength : config.host_table.host.length ≤ host_table.host.length) :
    (map_collection_suffixes (config.with_host_table host_table)).isSome = true := by
  apply map_collection_suffixes_isSome
  intro cls hcls entry hentry
  obtain ⟨loaded, hloaded, rfl⟩ := List.mem_map.mp hcls
  have hmem : loaded.host ∈ config.hosts := List.mem_map_of_mem hloaded
  obtain ⟨hlt, hknown⟩ := h.linked loaded.host hmem entry hentry
  have hinfo := List.getElem?_eq_getElem (hlt.trans_le hlength)
  exact ⟨_, hinfo, fun _ => hknown⟩

theorem length_host_of_map {cfg : Snapp_config} {classes : List SQL_Collection_Class}
    {hosts : List Host_Info} (hmap : map_collection_suffixes cfg = some (classes, hosts)) :
    List.Forall₂ (fun cls cls' => cls.host.length = cls'.host.length) cfg.collection_class
      classes := by
  have hround : ∀ cls ∈ cfg.collection_class, ∀ hosts cls' hosts',
      hosts.map lookups = cfg.host_table.host.map lookups →
      (map_class cfg.oid_mapping_sequence_db cls).run hosts = some (cls', hosts') →
      hosts'.map lookups = cfg.host_table.host.map lookups ∧
        cls.host.length = cls'.host.length := by
    intro cls _ hosts cls' hosts' hinv hrun
    obtain ⟨hinv', host, rfl, hmapped⟩ := map_class_run hinv hrun
    exact ⟨hinv', hmapped.length_eq⟩
  exact (mapM_run (·.map lookups = cfg.host_table.host.map lookups) _ rfl hmap hround).2

end

/-! ## The threads -/

def creates (pthread_create : Nat → Bool) (host_size : Nat) : Bool :=
  (List.range (CollectionClass.num_workers host_size)).all pthread_create &&
    pthread_create (CollectionClass.num_workers host_size)

theorem creates_iff {pthread_create : Nat → Bool} {host_size : Nat} :
    creates pthread_create host_size = true ↔
      ∀ i ≤ CollectionClass.num_workers host_size, pthread_create i = true := by
  unfold creates
  rw [Bool.and_eq_true, List.all_eq_true]
  constructor
  · rintro ⟨hworkers, hmain⟩ i hi
    obtain hlt | rfl := Nat.lt_or_eq_of_le hi
    · exact hworkers i (List.mem_range.mpr hlt)
    · exact hmain
  · intro hall
    exact ⟨fun i hi => hall i (List.mem_range.mp hi).le, hall _ le_rfl⟩

theorem decided_initialize_class (pthread_create : Nat → Bool) (cls : SQL_Collection_Class) :
    (initialize_class pthread_create cls).Decided (creates pthread_create cls.host.length) := by
  unfold initialize_class creates
  refine Course.Decided.bind ?_ fun _ => (decided_assert _).bind_returned
  exact Course.Decided.forM (fun i => decided_assert (pthread_create i)) _

def ThreadsReady (pthread_create : Nat → Nat → Bool) (config : Loaded_config) : Prop :=
  ∀ (i : Nat) (cls : Loaded_class), config.collection_class[i]? = some cls →
    ∀ j ≤ CollectionClass.num_workers cls.host.length, pthread_create i j = true

theorem survives_initialize_classes {pthread_create : Nat → Nat → Bool} {config : Loaded_config}
    {classes : List SQL_Collection_Class}
    (hlength : List.Forall₂ (fun cls cls' => cls.host.length = cls'.host.length)
      (config.collection_class.map (·.toSQL_Collection_Class)) classes) :
    (initialize_classes pthread_create classes).Survives ↔ ThreadsReady pthread_create config := by
  have hdecided : (initialize_classes pthread_create classes).Decided
      (classes.zipIdx.all fun cls => creates (pthread_create cls.2) cls.1.host.length) := by
    apply Course.Decided.mapM
    exact fun cls => decided_initialize_class (pthread_create cls.2) cls.1
  have hlengths : (config.collection_class.map fun cls => cls.host.length) =
      classes.map fun cls => cls.host.length := by
    rw [← List.forall₂_eq_eq_eq, List.forall₂_map_left_iff, List.forall₂_map_right_iff]
    exact List.forall₂_map_left_iff.mp hlength
  have hat : ∀ i : Nat, (config.collection_class[i]?).map (·.host.length) =
      (classes[i]?).map (·.host.length) := by
    intro i
    have hi := congrArg (·[i]?) hlengths
    simpa only [List.getElem?_map] using hi
  rw [hdecided.survives_iff, List.all_eq_true]
  constructor
  · intro hall i cls hcls
    have hi := hat i
    rw [hcls] at hi
    obtain ⟨cls', hcls', hsame⟩ := Option.map_eq_some_iff.mp hi.symm
    have hcreates := hall (cls', i) (List.mk_mem_zipIdx_iff_getElem?.mpr hcls')
    have hcreated := creates_iff.mp hcreates
    rwa [show cls'.host.length = cls.host.length from hsame] at hcreated
  · rintro hready ⟨cls', i⟩ hmem
    have hi := hat i
    rw [List.mk_mem_zipIdx_iff_getElem?.mp hmem] at hi
    obtain ⟨cls, hcls, hsame⟩ := Option.map_eq_some_iff.mp hi
    apply creates_iff.mpr
    show ∀ j ≤ CollectionClass.num_workers cls'.host.length, pthread_create i j = true
    rw [← show cls.host.length = cls'.host.length from hsame]
    exact hready i cls hcls

/-! ## All of it -/

structure InitReady (answers : InitAnswers σ) (fuel : Nat) (config : Loaded_config) (s : σ) :
    Prop where
  files : FilesReady answers.fs answers.stack config s
  tables : (∃ s', create_missing_rrd_files answers.fs answers.stack config s = .returned s') →
    HostsReady answers.tables fuel config.host_table.host
  threads : (∃ s', create_missing_rrd_files answers.fs answers.stack config s = .returned s') →
    (∃ host_table, load_host_tables answers.tables fuel config.host_table = .returned host_table) →
      ThreadsReady answers.pthread_create config

theorem survives_init_config {answers : InitAnswers σ} {fuel : Nat} {config : Loaded_config}
    {s : σ} (h : Consistent config.oid_mapping_sequence_db config.host_table.host config.hosts) :
    (init_config answers fuel config s).Survives ↔ InitReady answers fuel config s := by
  have hthreads : ∀ host_table,
      load_host_tables answers.tables fuel config.host_table = .returned host_table →
      ((asserted (map_collection_suffixes (config.with_host_table host_table)) >>= fun mapped =>
          initialize_classes answers.pthread_create mapped.1).Survives ↔
        ThreadsReady answers.pthread_create config) := by
    intro host_table hloaded
    have hsome := map_isSome_of_consistent h (length_of_load_host_tables hloaded)
    obtain ⟨⟨classes, hosts⟩, hmapped⟩ := Option.isSome_iff_exists.mp hsome
    rw [hmapped]
    exact survives_initialize_classes (length_host_of_map hmapped)
  unfold init_config
  rw [Course.survives_bind, survives_create_missing_rrd_files]
  have hrest : (load_host_tables answers.tables fuel config.host_table >>=
        fun host_table => asserted (map_collection_suffixes (config.with_host_table host_table)) >>=
          fun mapped => initialize_classes answers.pthread_create mapped.1).Survives ↔
      HostsReady answers.tables fuel config.host_table.host ∧ ∀ host_table,
        load_host_tables answers.tables fuel config.host_table = .returned host_table →
          ThreadsReady answers.pthread_create config := by
    rw [Course.survives_bind, survives_load_host_tables h.keyed]
    exact and_congr_right fun _ => forall_congr' fun t => imp_congr_right (hthreads t)
  constructor
  · rintro ⟨hfiles, hloads⟩
    exact ⟨hfiles, fun ⟨s', hs'⟩ => (hrest.mp (hloads s' hs')).1,
      fun ⟨s', hs'⟩ ⟨host_table, hloaded⟩ => (hrest.mp (hloads s' hs')).2 host_table hloaded⟩
  · rintro ⟨hfiles, htables, hcreated⟩
    exact ⟨hfiles, fun s' hs' => hrest.mpr ⟨htables ⟨s', hs'⟩,
      fun host_table hloaded => hcreated ⟨s', hs'⟩ ⟨host_table, hloaded⟩⟩⟩

end SnappCollector.Config
