import SnappCollector.Config.LoadConfig
import SnappCollector.Config.Proofs.Closed
import SnappCollector.Config.Proofs.LoadConfig
import SnappCollector.Config.Proofs.Suffixes

/-!
# What every loaded configuration has

Whatever the database answers, the hosts of a configuration that was loaded are in its
host table, their tables stand under their own OIDs, and the mapping sequences of its
collections are known.
-/

namespace SnappCollector.Config

open CLib Collection Data

def HostLinked (db : OID_mapping_sequence_db) (hosts : List Host_Info) (h : SQL_Host) : Prop :=
  h.host < hosts.length ∧ ∀ c ∈ h.collection, SequenceKnown db c

/-- The hosts of the classes are linked, and the tables of all hosts are in their places. -/
structure Consistent (db : OID_mapping_sequence_db) (hosts : List Host_Info)
    (classes : List (List SQL_Host)) : Prop where
  linked : ∀ host ∈ classes, ∀ h ∈ host, HostLinked db hosts h
  keyed : ∀ info ∈ hosts, Keyed info

def Loading.hosts (s : Loading) : List (List SQL_Host) := s.collection_class.map (·.host)

section

variable {db : OID_mapping_sequence_db} {s s' : Loading} {hosts hosts' : List Host_Info}
  {classes : List (List SQL_Host)}

theorem element_at_ok {α : Type} {xs : List α} {index : Int} {i : Nat} {x : α}
    (h : element_at xs index = .ok (i, x)) : xs[i]? = some x := by
  unfold element_at at h
  split at h
  · cases h
  · split at h
    · cases h
    next hx =>
      cases h
      exact hx

theorem Consistent.set (h : Consistent db hosts classes) (i : Nat) {host : List SQL_Host}
    (hnew : ∀ h ∈ host, HostLinked db hosts h) : Consistent db hosts (classes.set i host) where
  linked host' hhost' := by
    obtain hmem | rfl := List.mem_or_eq_of_mem_set hhost'
    · exact h.linked host' hmem
    · exact hnew
  keyed := h.keyed

theorem Consistent.grow (h : Consistent db hosts classes) (hlength : hosts.length ≤ hosts'.length)
    (hkeyed : ∀ info ∈ hosts', Keyed info) : Consistent db hosts' classes where
  linked host hhost entry hentry := by
    obtain ⟨hlt, hknown⟩ := h.linked host hhost entry hentry
    exact ⟨hlt.trans_le hlength, hknown⟩
  keyed := hkeyed

/-! ## One row -/

theorem hosts_set (i : Nat) (cls : SQL_Collection_Class) :
    (s.collection_class.set i cls).map (·.host) = s.hosts.set i cls.host := List.map_set

theorem consistent_enter_class (h : Consistent db s.host_table.host s.hosts) (row : Row) :
    Consistent db (enter_class s row).host_table.host (enter_class s row).hosts := by
  unfold enter_class
  dsimp only
  split
  · refine ⟨fun host hhost => ?_, h.keyed⟩
    rw [Loading.hosts, List.map_append, List.mem_append] at hhost
    obtain hold | hnew := hhost
    · exact h.linked host hold
    · rw [List.map_singleton, List.mem_singleton] at hnew
      subst hnew
      exact fun _ hentry => absurd hentry (List.not_mem_nil)
  · exact h

theorem consistent_enter_host {row : Row} (h : Consistent db s.host_table.host s.hosts)
    (hrow : enter_host s row = .ok s') : Consistent db s'.host_table.host s'.hosts := by
  unfold enter_host at hrow
  split at hrow
  · split at hrow
    · cases hrow
    next p hp =>
      obtain ⟨⟨i, cls⟩, hcls, hlast⟩ := bind_eq_ok.mp hrow
      cases hlast
      have hmem : cls.host ∈ s.hosts :=
        List.mem_map_of_mem (List.mem_of_getElem? (element_at_ok hcls))
      show Consistent db s.host_table.host ((s.collection_class.set i _).map (·.host))
      rw [hosts_set]
      apply h.set
      intro entry hentry
      obtain hold | hnew := List.mem_append.mp hentry
      · exact h.linked cls.host hmem entry hold
      · rw [List.mem_singleton.mp hnew]
        exact ⟨Host_Info_Table.lt_of_get_host hp, fun _ hc => absurd hc (List.not_mem_nil)⟩
  · cases hrow
    exact h

theorem sequenceKnown_collection_of {row : Row} {seq : Option OID_mapping_sequence}
    (hseq : row_sequence db row = .ok seq) : SequenceKnown db (collection_of row) := by
  intro hid
  unfold row_sequence at hseq
  split at hseq
  next hnone => simp [collection_of, hnone] at hid
  next hsome =>
    split at hseq
    · cases hseq
    next found hfound => exact Option.isSome_iff_exists.mpr ⟨found, hfound⟩

theorem consistent_enter_collection {row : Row} (h : Consistent db s.host_table.host s.hosts)
    (hrow : enter_collection db s row = .ok s') : Consistent db s'.host_table.host s'.hosts := by
  unfold enter_collection at hrow
  obtain ⟨seq, hseq, hrow⟩ := bind_eq_ok.mp hrow
  obtain ⟨⟨i, cls⟩, hcls, hrow⟩ := bind_eq_ok.mp hrow
  obtain ⟨⟨j, host⟩, hhost, hlast⟩ := bind_eq_ok.mp hrow
  cases hlast
  have hlinked := h.linked cls.host (List.mem_map_of_mem (List.mem_of_getElem? (element_at_ok hcls)))
  have hclasses : Consistent db s.host_table.host ((s.collection_class.set i { cls with
      host := cls.host.set j { host with
        collection := host.collection ++ [collection_of row] } }).map (·.host)) := by
    rw [hosts_set]
    apply h.set
    intro entry hentry
    obtain hold | rfl := List.mem_or_eq_of_mem_set hentry
    · exact hlinked entry hold
    · obtain ⟨hlt, hknown⟩ := hlinked host (List.mem_of_getElem? (element_at_ok hhost))
      refine ⟨hlt, fun c hc => ?_⟩
      obtain hc | hc := List.mem_append.mp hc
      · exact hknown c hc
      · rw [List.mem_singleton.mp hc]
        exact sequenceKnown_collection_of hseq
  have hgrown := hostsGrown_modify s.host_table.host host.host (seq.elim [] (·.oid))
  exact hclasses.grow (List.length_modify _ _ _).ge (hgrown.keyed h.keyed)

theorem consistent_load_stored_row {row : StoredRow}
    (h : Consistent db s.host_table.host s.hosts)
    (hrow : load_stored_row db s row = .returned s') :
    Consistent db s'.host_table.host s'.hosts := by
  unfold load_stored_row at hrow
  obtain ⟨s₁, hhost, hrow⟩ := Course.bind_eq_returned.mp hrow
  obtain ⟨rrdfile, -, hrow⟩ := Course.bind_eq_returned.mp hrow
  have hentered := consistent_enter_class h (row.withFile [])
  have hpointed := consistent_enter_host hentered (course_eq_returned.mp hhost)
  exact consistent_enter_collection hpointed (course_eq_returned.mp hrow)

/-! ## All rows -/

theorem consistent_load_stored_blocks {query : Nat → Nat → Option (List StoredRow)}
    {row_limit : Nat} (fuel num_rows_done : Nat) (h : Consistent db s.host_table.host s.hosts)
    (hrun : load_stored_blocks db query row_limit fuel num_rows_done s = .returned s') :
    Consistent db s'.host_table.host s'.hosts := by
  induction fuel generalizing num_rows_done s with
  | zero => cases hrun
  | succ fuel ih =>
      unfold load_stored_blocks at hrun
      split at hrun
      · cases hrun
      next rows _ =>
        obtain ⟨s₁, hpage, hrest⟩ := Course.bind_eq_returned.mp hrun
        have hpage : Consistent db s₁.host_table.host s₁.hosts :=
          Course.foldlM_returned (fun s => Consistent db s.host_table.host s.hosts) h hpage
            fun row _ s s' => consistent_load_stored_row
        split at hrest
        · exact ih _ hpage hrest
        · cases hrest
          exact hpage

theorem consistent_start {host_table : Host_Info_Table} (hkeyed : ∀ info ∈ host_table.host, Keyed info) :
    Consistent db (Loading.start host_table).host_table.host (Loading.start host_table).hosts :=
  ⟨fun _ hhost => absurd hhost (List.not_mem_nil), hkeyed⟩

end

/-! ## All of it -/

theorem keyed_of_load_hosts {query : Option (List HostRow)} {mapping_done : Int32}
    {host_table : Host_Info_Table} (hrun : load_hosts query mapping_done .empty = .ok host_table) :
    ∀ info ∈ host_table.host, Keyed info := by
  cases query with
  | none => cases hrun
  | some rows =>
      obtain ⟨table, htable, hloaded⟩ := load_hosts_ok rows mapping_done
      rw [htable] at hrun
      cases hrun
      exact hloaded.keyed

theorem hosts_of_mapM {α β : Type} {f : α → Course Death β} {host : α → List SQL_Host}
    {host' : β → List SQL_Host} (hkept : ∀ x y, f x = .returned y → host' y = host x)
    {xs : List α} {ys : List β} (hrun : xs.mapM f = .returned ys) : ys.map host' = xs.map host := by
  have hrounds := Course.mapM_returned hrun
  clear hrun
  induction hrounds with
  | nil => rfl
  | cons hx _ ih => rw [List.map_cons, List.map_cons, hkept _ _ hx, ih]

theorem hosts_of_load_class_oids {query : Int32 → Option (List OidRow)}
    (cls : SQL_Collection_Class) (loaded : Loaded_class)
    (hrun : load_class_oids query cls = .returned loaded) : loaded.host = cls.host := by
  unfold load_class_oids at hrun
  split at hrun
  · cases hrun
  · cases hrun
    rfl

theorem hosts_of_load_class_rras {query : Int32 → Option (List RRA_definition)}
    (cls loaded : Loaded_class) (hrun : load_class_rras query cls = .returned loaded) :
    loaded.host = cls.host := by
  unfold load_class_rras at hrun
  split at hrun
  · cases hrun
  · cases hrun
    rfl

def Loaded_config.hosts (config : Loaded_config) : List (List SQL_Host) :=
  config.collection_class.map (·.host)

theorem consistent_run_loaders {answers : LoadAnswers} {fuel : Nat} {xml_config : XML_config}
    {config : Loaded_config} (hrun : run_loaders answers fuel xml_config = .returned config) :
    Consistent config.oid_mapping_sequence_db config.host_table.host config.hosts := by
  unfold run_loaders at hrun
  obtain ⟨host_table, hhosts, hrun⟩ := Course.bind_eq_returned.mp hrun
  obtain ⟨db, -, hrun⟩ := Course.bind_eq_returned.mp hrun
  obtain ⟨s, hblocks, hrun⟩ := Course.bind_eq_returned.mp hrun
  obtain ⟨classes, hoids, hrun⟩ := Course.bind_eq_returned.mp hrun
  obtain ⟨classes', hrras, hrun⟩ := Course.bind_eq_returned.mp hrun
  obtain ⟨rrd_dir, -, hlast⟩ := Course.bind_eq_returned.mp hrun
  cases hlast
  have hkeyed := keyed_of_load_hosts (course_eq_returned.mp hhosts)
  have hloaded : Consistent db s.host_table.host s.hosts :=
    consistent_load_stored_blocks fuel 0 (consistent_start hkeyed) hblocks
  have hsame : classes'.map (·.host) = s.hosts := by
    calc
      classes'.map (·.host) = classes.map (·.host) := hosts_of_mapM hosts_of_load_class_rras hrras
      _ = s.hosts := hosts_of_mapM hosts_of_load_class_oids hoids
  show Consistent db s.host_table.host (classes'.map (·.host))
  rw [hsame]
  exact hloaded

theorem end_transaction_eq_returned {answers : LoadAnswers} {x : Course Death Loaded_config}
    {config : Loaded_config} (hrun : end_transaction answers x = .returned config) :
    x = .returned config := by
  unfold end_transaction at hrun
  split at hrun
  · split at hrun
    · exact hrun
    · cases hrun
  · cases hrun
  · cases hrun
  · cases hrun

theorem consistent_load_config {answers : LoadAnswers} {fuel : Nat} {config : Loaded_config}
    (hrun : load_config answers fuel = .returned config) :
    Consistent config.oid_mapping_sequence_db config.host_table.host config.hosts := by
  unfold load_config at hrun
  obtain ⟨xml_config, -, hrun⟩ := Course.bind_eq_returned.mp hrun
  obtain ⟨_, -, hrun⟩ := Course.bind_eq_returned.mp hrun
  split at hrun
  · exact consistent_run_loaders (end_transaction_eq_returned hrun)
  · cases hrun

end SnappCollector.Config
