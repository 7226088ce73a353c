import SnappCollector.Config.Database
import SnappCollector.Config.Proofs.LoadedTables
import SnappCollector.Config.Proofs.Suffixes
import SnappCollector.Config.Proofs.Ties

/-!
# A loaded configuration is closed

Three joins over the same tables cover each other: every host and every sequence that
the rows of the collections mention has been loaded, and every OID of a sequence gets
a table at the hosts that use it.
-/

namespace SnappCollector.Config

open CLib Collection Data

variable {db : OID_mapping_sequence_db} {table : Host_Info_Table} {rows : List Row}
  {s s' : Loading} {row : Row}

/-! ## The tables of the hosts -/

section OidTables

variable {oids : List CStr} {info : Host_Info}

def insert_oids (oids : List CStr) (info : Host_Info) : Host_Info :=
  oids.foldl (fun info oid => { info with oid_table := info.oid_table.insert oid ⟨oid, ∅⟩ }) info

theorem insert_oids_spec (oids : List CStr) (info : Host_Info) :
    (insert_oids oids info).db_id = info.db_id ∧
      (∀ x, x ∈ (insert_oids oids info).oid_table ↔ x ∈ oids ∨ x ∈ info.oid_table) ∧
      (Keyed info → Keyed (insert_oids oids info)) := by
  induction oids generalizing info with
  | nil => simp [insert_oids]
  | cons oid oids ih =>
      obtain ⟨hid, hmem, hkeyed⟩ :=
        ih { info with oid_table := info.oid_table.insert oid ⟨oid, ∅⟩ }
      refine ⟨hid, fun x => ?_, fun h => hkeyed (keyed_insert h oid)⟩
      rw [List.mem_cons, or_assoc, or_left_comm]
      exact (hmem x).trans (or_congr_right (AList.mem_insert _))

end OidTables

structure HostsGrown (hosts hosts' : List Host_Info) : Prop where
  same_ids : db_ids hosts' = db_ids hosts
  grown : ∀ (p : Nat) (info : Host_Info), hosts[p]? = some info →
    ∃ info' : Host_Info, hosts'[p]? = some info' ∧ ∀ x ∈ info.oid_table, x ∈ info'.oid_table
  keyed : (∀ info ∈ hosts, Keyed info) → ∀ info ∈ hosts', Keyed info

theorem HostsGrown.refl (hosts : List Host_Info) : HostsGrown hosts hosts :=
  ⟨rfl, fun _ info h => ⟨info, h, fun _ => id⟩, id⟩

theorem HostsGrown.trans {hosts hosts' hosts'' : List Host_Info} (h : HostsGrown hosts hosts')
    (h' : HostsGrown hosts' hosts'') : HostsGrown hosts hosts'' where
  same_ids := h'.same_ids.trans h.same_ids
  grown p info hinfo := by
    obtain ⟨info', hinfo', hsub⟩ := h.grown p info hinfo
    obtain ⟨info'', hinfo'', hsub'⟩ := h'.grown p info' hinfo'
    exact ⟨info'', hinfo'', fun x hx => hsub' x (hsub x hx)⟩
  keyed := h'.keyed ∘ h.keyed

theorem hostsGrown_modify (hosts : List Host_Info) (i : Nat) (oids : List CStr) :
    HostsGrown hosts (hosts.modify i (insert_oids oids)) where
  same_ids := by
    apply List.ext_getElem?
    intro p
    rw [db_ids, db_ids, List.getElem?_map, List.getElem?_map, List.getElem?_modify]
    cases hosts[p]? with
    | none => rfl
    | some info =>
        by_cases hp : i = p
        · simp [hp, (insert_oids_spec oids info).1]
        · simp [hp]
  grown p info hinfo := by
    rw [List.getElem?_modify, hinfo]
    by_cases hp : i = p
    · refine ⟨insert_oids oids info, by simp [hp], fun x hx => ?_⟩
      exact ((insert_oids_spec oids info).2.1 x).mpr (.inr hx)
    · exact ⟨info, by simp [hp], fun _ => id⟩
  keyed hkeyed info hinfo := by
    obtain ⟨p, hp⟩ := List.mem_iff_getElem?.mp hinfo
    rw [List.getElem?_modify] at hp
    obtain ⟨old, hold, rfl⟩ := Option.map_eq_some_iff.mp hp
    have hmem := hkeyed old (List.mem_of_getElem? hold)
    split
    · exact (insert_oids_spec oids old).2.2 hmem
    · exact hmem

/-! ## One row after the other -/

/-- The host of a row has a table for every OID of its mapping sequence. -/
def Supplied (db : OID_mapping_sequence_db) (table : Host_Info_Table) (hosts : List Host_Info)
    (row : Row) : Prop :=
  ∀ seq, row_sequence db row = .ok (some seq) →
    ∃ p info, table.get_host_for_db_id row.host_id.toUInt32 = some p ∧ hosts[p]? = some info ∧
      ∀ oid ∈ seq.oid, oid ∈ Host_Info.oid_table info

theorem Supplied.grow {hosts hosts' : List Host_Info} (h : Supplied db table hosts row)
    (hgrown : HostsGrown hosts hosts') : Supplied db table hosts' row := by
  intro seq hseq
  obtain ⟨p, info, hp, hinfo, hoids⟩ := h seq hseq
  obtain ⟨info', hinfo', hsub⟩ := hgrown.grown p info hinfo
  exact ⟨p, info', hp, hinfo', fun oid hoid => hsub oid (hoids oid hoid)⟩

def NoEmptyHost (classes : List SQL_Collection_Class) : Prop :=
  ∀ cls ∈ classes, ∀ h ∈ cls.host, h.collection ≠ []

section RowLoaded

variable {before : List SQL_Collection_Class} {cls : SQL_Collection_Class}
  {hosts : List SQL_Host} {h : SQL_Host} {seq : Option OID_mapping_sequence}

theorem RowLoaded.host_table_eq (hrow : RowLoaded table db s row s' before cls hosts h seq) :
    s'.host_table.host = s.host_table.host.modify h.host (insert_oids (seq.elim [] (·.oid))) := by
  rw [hrow.result]
  rfl

theorem RowLoaded.supplied (hrow : RowLoaded table db s row s' before cls hosts h seq)
    (hsame : SameHosts s.host_table table) : Supplied db table s'.host_table.host row := by
  intro seq' hseq'
  obtain rfl : seq = some seq' := Except.ok.inj (hrow.sequence.symm.trans hseq')
  have hlt : h.host < s.host_table.host.length :=
    Host_Info_Table.lt_of_get_host ((hsame _).trans hrow.host)
  refine ⟨h.host, insert_oids seq'.oid (s.host_table.host[h.host]), hrow.host, ?_,
    fun oid hoid => ?_⟩
  · rw [hrow.host_table_eq, List.getElem?_modify, List.getElem?_eq_getElem hlt]
    simp
  · exact ((insert_oids_spec _ _).2.1 oid).mpr (.inl hoid)

theorem RowLoaded.noEmptyHost (hrow : RowLoaded table db s row s' before cls hosts h seq)
    (hs : NoEmptyHost s.collection_class) : NoEmptyHost s'.collection_class := by
  have hbefore : ∀ cls' ∈ before, ∀ h' ∈ cls'.host, h'.collection ≠ [] := by
    rcases hrow.opened with hold | ⟨-, hold⟩ | ⟨-, -, hold⟩
    all_goals
      intro cls' hcls'
      exact hs cls' (hold ▸ by simp [hcls'])
  have hhosts : ∀ h' ∈ hosts, h'.collection ≠ [] := by
    rcases hrow.opened with hold | ⟨-, hold⟩ | ⟨-, rfl, -⟩
    · intro h' hh'
      exact hs (with_hosts cls (hosts ++ [h])) (hold ▸ by simp) h' (by simp [hh'])
    · intro h' hh'
      exact hs (with_hosts cls hosts) (hold ▸ by simp) h' (by simpa using hh')
    · simp
  rw [hrow.result]
  intro cls' hcls' h' hh'
  rcases List.mem_append.mp hcls' with hold | hlast
  · exact hbefore cls' hold h' hh'
  · rw [List.mem_singleton.mp hlast, with_hosts_host] at hh'
    rcases List.mem_append.mp hh' with hold | hnew
    · exact hhosts h' hold
    · rw [List.mem_singleton.mp hnew, add_collection]
      simp

end RowLoaded

theorem load_rows_tables (hend : AtEnd table s) (hs : NoEmptyHost s.collection_class)
    (hrows : rows.foldlM (load_row db) s = .ok s') :
    NoEmptyHost s'.collection_class ∧ HostsGrown s.host_table.host s'.host_table.host ∧
      ∀ row ∈ rows, Supplied db table s'.host_table.host row := by
  induction rows generalizing s with
  | nil =>
      cases hrows
      exact ⟨hs, .refl _, by simp⟩
  | cons row rows ih =>
      rw [List.foldlM_cons] at hrows
      obtain ⟨s₁, hrow, hrest⟩ := bind_eq_ok.mp hrows
      obtain ⟨before, cls, hosts, h, seq, hloaded⟩ := load_row_cases hend hrow
      obtain ⟨hempty, hgrown, hsupplied⟩ :=
        ih (hloaded.atEnd hend.same_hosts) (hloaded.noEmptyHost hs) hrest
      refine ⟨hempty, ?_, ?_⟩
      · exact (hloaded.host_table_eq ▸ hostsGrown_modify _ _ _ :
          HostsGrown s.host_table.host s₁.host_table.host).trans hgrown
      · intro row' hrow'
        rcases List.mem_cons.mp hrow' with rfl | htail
        · exact (hloaded.supplied hend.same_hosts).grow hgrown
        · exact hsupplied row' htail

/-! ## The rows of a snapshot -/

namespace Snapshot

variable {snapshot : Snapshot}

theorem exists_collection {row : Row} (hrow : row ∈ snapshot.collection_rows) :
    ∃ c ∈ snapshot.collection, row.host_id = c.host_id ∧
      row.oid_suffix_mapping_id = c.oid_suffix_mapping_id := by
  obtain ⟨⟨⟨c, cls⟩, i⟩, hmem, rfl⟩ := List.mem_map.mp hrow
  exact ⟨c, (mem_join.mp (mem_join.mp hmem).1).1, rfl, rfl⟩

/-- Every collection has a row in the query for the hosts, whatever its mapping. -/
theorem exists_host_row {c : CollectionRecord} (hc : c ∈ snapshot.collection) :
    ∃ row ∈ snapshot.host_rows, row.host_id = c.host_id := by
  obtain ⟨h, hh, hid⟩ := snapshot.collection_ibfk_1 c hc
  obtain ⟨m, hm⟩ := exists_mem_leftJoin (fun (c : CollectionRecord) (m : OidSuffixMapping) =>
    c.oid_suffix_mapping_id = some m.oid_suffix_mapping_id) snapshot.oid_suffix_mapping hc
  obtain ⟨v, hv⟩ := exists_mem_leftJoin _ snapshot.oid_suffix_mapping_value hm
  exact ⟨_, List.mem_map.mpr ⟨(h, (c, m), v), mem_join.mpr ⟨hh, hv, by simpa using hid⟩, rfl⟩, hid⟩

theorem exists_sequence_row {c : CollectionRecord} (hc : c ∈ snapshot.collection) {id : Int32}
    (hid : c.oid_suffix_mapping_id = some id) :
    ∃ row ∈ snapshot.sequence_rows, row.oid_suffix_mapping_id = id := by
  obtain ⟨m, hm, hmid⟩ := snapshot.suffix_mapping_collection_fk c hc id hid
  obtain ⟨v, hv, hvid⟩ := snapshot.oid_suffix_mapping_map_type_fk m hm
  exact ⟨_, List.mem_map.mpr ⟨(m, v), mem_join.mpr ⟨hm, hv, by simp [hvid]⟩, rfl⟩, hmid⟩

theorem text_of_sequence_row {row : SequenceRow} (hrow : row ∈ snapshot.sequence_rows) :
    row.OID ≠ none := by
  obtain ⟨⟨m, v⟩, -, rfl⟩ := List.mem_map.mp hrow
  simp [value_row]

theorem text_of_value_answer (id : Int32) (row : ValueRow)
    (hrow : snapshot.value_answer id = some (some row)) : row.OID ≠ none := by
  obtain ⟨v, -, rfl⟩ := Option.map_eq_some_iff.mp (Option.some.inj hrow)
  simp [value_row]

end Snapshot

theorem sequence_of_collection_of {id : Int32} (hid : row.oid_suffix_mapping_id = some id) :
    sequence_of db (collection_of row) = db.get_sequence_by_db_id id.toUInt32 := by
  simp [sequence_of, collection_of, hid]

section Loaded

variable {snapshot : Snapshot} {hosts : List HostRow} {sequences : List SequenceRow}

theorem readyRow_of_mem (hhosts : HostsLoaded hosts table)
    (hgrouped : Grouped (fun row : HostRow => (row.host_id, row.oid_suffix_mapping_id))
      snapshot.host_rows hosts)
    (hsequences : SequencesLoaded sequences db) (hperm : sequences.Perm snapshot.sequence_rows)
    (hrow : row ∈ snapshot.collection_rows) (hclass : row.collection_class_id ≠ -1)
    (hhost : row.host_id ≠ -1) :
    ReadyRow db table row := by
  obtain ⟨c, hc, hhost_id, hmapping⟩ := Snapshot.exists_collection hrow
  refine ⟨hclass, hhost, ?_, ?_⟩
  · obtain ⟨host_row, hmem, hid⟩ := Snapshot.exists_host_row hc
    obtain ⟨kept, hkept, hkey⟩ := hgrouped.exists_mem hmem
    obtain ⟨p, hp⟩ := hhosts.exists_get_host hkept
    have hkept_id : kept.host_id = row.host_id :=
      (congrArg Prod.fst hkey).trans (hid.trans hhost_id.symm)
    exact ⟨p, hkept_id ▸ hp⟩
  · cases hid : row.oid_suffix_mapping_id with
    | none => exact ⟨none, by rw [row_sequence, hid]⟩
    | some id =>
        obtain ⟨sequence_row, hmem, rfl⟩ := Snapshot.exists_sequence_row hc (hmapping ▸ hid)
        obtain ⟨seq, hseq, -⟩ := hsequences.exists_sequence (hperm.mem_iff.mpr hmem)
        exact ⟨some seq, by rw [row_sequence, hid]; simp [sequence_of_collection_of hid, hseq]⟩

end Loaded

/-! ## The configuration -/

/-- A collection comes from a row of its class and its host, with a table for every OID
of its mapping sequence if it has one. -/
structure FromRow (db : OID_mapping_sequence_db) (cls : SQL_Collection_Class) (info : Host_Info)
    (c : SQL_Collection) (row : Row) : Prop where
  collection : c = collection_of row
  class_id : row.collection_class_id.toUInt32 = cls.db_id
  host_id : row.host_id = info.db_id
  mapping : ∀ id, row.oid_suffix_mapping_id = some id →
    ∃ seq, sequence_of db c = some seq ∧ seq.db_id = id ∧ ∀ oid ∈ seq.oid, oid ∈ info.oid_table

/-- What the classes of a configuration refer to has been loaded. -/
structure Closed (rows : List Row) (cfg : Snapp_config) : Prop where
  hosts : ∀ cls ∈ cfg.collection_class, ∀ h ∈ cls.host, h.collection ≠ [] ∧
    ∃ info, cfg.host_table.host[h.host]? = some info ∧
      ∀ c ∈ h.collection, ∃ row ∈ rows, FromRow cfg.oid_mapping_sequence_db cls info c row
  keyed : ∀ info ∈ cfg.host_table.host, Keyed info

/-- The assertion in `map_collection_suffixes` holds, whatever tables the hosts get. -/
theorem Closed.map_isSome {cfg : Snapp_config} (hclosed : Closed rows cfg)
    {host_table : Host_Info_Table}
    (hlength : host_table.host.length = cfg.host_table.host.length) :
    (map_collection_suffixes { cfg with host_table }).isSome := by
  refine map_collection_suffixes_isSome fun cls hcls h hh => ?_
  obtain ⟨-, info, hinfo, hcollections⟩ := hclosed.hosts cls hcls h hh
  have hlt : h.host < host_table.host.length :=
    hlength ▸ (List.getElem?_eq_some_iff.mp hinfo).1
  refine ⟨host_table.host[h.host], List.getElem?_eq_getElem hlt, fun _ c hc hid => ?_⟩
  obtain ⟨row, -, hfrom⟩ := hcollections c hc
  cases hmapping : row.oid_suffix_mapping_id with
  | none =>
      rw [hfrom.collection] at hid
      simp [collection_of, hmapping] at hid
  | some id =>
      obtain ⟨seq, hseq, -⟩ := hfrom.mapping id hmapping
      exact Option.isSome_iff_exists.mpr ⟨seq, hseq⟩

theorem exists_row_of_collection (hrows : rows.foldlM (load_row db) (Loading.start table) = .ok s)
    {cls : SQL_Collection_Class} (hcls : cls ∈ s.collection_class) {h : SQL_Host}
    (hh : h ∈ cls.host) {c : SQL_Collection} (hc : c ∈ h.collection) :
    ∃ row ∈ rows, entry_of table row = ⟨cls.db_id, some h.host, c⟩ := by
  have hmem : (⟨cls.db_id, some h.host, c⟩ : Entry) ∈ entries s.collection_class :=
    List.mem_flatMap.mpr ⟨cls, hcls, List.mem_flatMap.mpr ⟨h, hh, List.mem_map.mpr ⟨c, hc, rfl⟩⟩⟩
  rw [(load_rows_cases (atEnd_start table) hrows).2] at hmem
  simpa [Loading.start, entries] using hmem

theorem sequence_of_supplied {snapshot : Snapshot} {sequences : List SequenceRow}
    (hsequences : SequencesLoaded sequences db) (hperm : sequences.Perm snapshot.sequence_rows)
    (hrow : row ∈ snapshot.collection_rows) {hosts : List Host_Info}
    (hsupplied : Supplied db table hosts row) {id : Int32}
    (hid : row.oid_suffix_mapping_id = some id) :
    ∃ p info seq, table.get_host_for_db_id row.host_id.toUInt32 = some p ∧
      hosts[p]? = some info ∧ sequence_of db (collection_of row) = some seq ∧ seq.db_id = id ∧
      ∀ oid ∈ seq.oid, oid ∈ Host_Info.oid_table info := by
  obtain ⟨collection, hcollection, -, hmapping⟩ := Snapshot.exists_collection hrow
  obtain ⟨sequence_row, hmem, rfl⟩ := Snapshot.exists_sequence_row hcollection (hmapping ▸ hid)
  obtain ⟨seq, hseq, hseq_id⟩ := hsequences.exists_sequence (hperm.mem_iff.mpr hmem)
  rw [← sequence_of_collection_of hid] at hseq
  have hfound : row_sequence db row = .ok (some seq) := by
    rw [row_sequence, hid]
    simp [hseq]
  obtain ⟨p, info, hp, hinfo, hoids⟩ := hsupplied seq hfound
  exact ⟨p, info, seq, hp, hinfo, hseq, hseq_id, hoids⟩

theorem closed_of_load_rows {snapshot : Snapshot} {hosts : List HostRow}
    {sequences : List SequenceRow} {loaded : List Row} (hhosts : HostsLoaded hosts table)
    (hsequences : SequencesLoaded sequences db) (hperm : sequences.Perm snapshot.sequence_rows)
    (hsubset : loaded ⊆ snapshot.collection_rows)
    (hrows : loaded.foldlM (load_row db) (Loading.start table) = .ok s) :
    Closed snapshot.collection_rows ⟨s.host_table, db, s.collection_class⟩ := by
  have hstart : NoEmptyHost (Loading.start table).collection_class := by
    simp [NoEmptyHost, Loading.start]
  obtain ⟨hempty, hgrown, hsupplied⟩ := load_rows_tables (atEnd_start table) hstart hrows
  have hids : db_ids s.host_table.host = db_ids table.host := hgrown.same_ids
  have hhost : ∀ row h, (entry_of table row).host = some h →
      (db_ids s.host_table.host)[h]? = some row.host_id := fun row h hp =>
    hids ▸ hhosts.db_id_of_get_host hp
  refine ⟨fun cls hcls h hh => ⟨hempty cls hcls h hh, ?_⟩, hgrown.keyed hhosts.keyed⟩
  obtain ⟨c₀, hc₀⟩ := List.exists_mem_of_ne_nil _ (hempty cls hcls h hh)
  obtain ⟨row₀, -, hrow₀⟩ := exists_row_of_collection hrows hcls hh hc₀
  have hat := hhost row₀ h.host (congrArg Entry.host hrow₀)
  rw [db_ids, List.getElem?_map] at hat
  obtain ⟨info, hinfo, -⟩ := Option.map_eq_some_iff.mp hat
  refine ⟨info, hinfo, fun c hc => ?_⟩
  obtain ⟨row, hrow, hentry⟩ := exists_row_of_collection hrows hcls hh hc
  have hp : table.get_host_for_db_id row.host_id.toUInt32 = some h.host :=
    congrArg Entry.host hentry
  have hc' : collection_of row = c := congrArg Entry.collection hentry
  refine ⟨row, hsubset hrow, hc'.symm, congrArg Entry.collection_class_id hentry, ?_, ?_⟩
  · have hat := hhost row h.host hp
    rw [db_ids, List.getElem?_map, hinfo] at hat
    exact (Option.some.inj hat).symm
  · intro id hid
    obtain ⟨p, info', seq, hp', hinfo', hseq, hseq_id, hoids⟩ :=
      sequence_of_supplied hsequences hperm (hsubset hrow) (hsupplied row hrow) hid
    obtain rfl : h.host = p := Option.some.inj (hp.symm.trans hp')
    obtain rfl : info = info' := Option.some.inj (hinfo.symm.trans hinfo')
    exact ⟨seq, hc' ▸ hseq, hseq_id, hoids⟩

/-- The loaders succeed and leave a closed configuration, so that its suffixes can be
mapped.  The ids of the collections are not -1, which stands for none yet. -/
theorem loads_closed (snapshot : Snapshot) (answers : Answers)
    (hreads : answers.ReadsFrom snapshot)
    (hids : ∀ row ∈ snapshot.collection_rows, row.collection_class_id ≠ -1 ∧ row.host_id ≠ -1)
    (mapping_done : Int32) :
    ∃ table db fuel s, load_hosts answers.hosts mapping_done .empty = .ok table ∧
      load_mapping_sequences answers.sequences answers.value .empty = .ok db ∧
      load_collection_classes db answers.collections fuel table = some (.ok s) ∧
      Closed snapshot.collection_rows ⟨s.host_table, db, s.collection_class⟩ ∧
      ∀ host_table : Host_Info_Table, host_table.host.length = s.host_table.host.length →
        (map_collection_suffixes ⟨host_table, db, s.collection_class⟩).isSome := by
  obtain ⟨⟨hosts, hhosts, hgrouped⟩, ⟨sequences, hsequences, hperm⟩, hvalue, hanswered, hpermits⟩ :=
    hreads
  obtain ⟨table, htable, hhosts_loaded⟩ := load_hosts_ok hosts mapping_done
  obtain ⟨db, hdb, hsequences_loaded⟩ := load_mapping_sequences_ok
    Snapshot.text_of_value_answer
    (fun row hrow => Snapshot.text_of_sequence_row (hperm.mem_iff.mp hrow))
  have hready : ∀ row ∈ snapshot.collection_rows, ReadyRow db table row := fun row hrow =>
    readyRow_of_mem hhosts_loaded hgrouped hsequences_loaded hperm hrow (hids row hrow).1
      (hids row hrow).2
  obtain ⟨fuel, s, loaded, hload, hsubset, hrows⟩ :=
    loads_of_ready hready (by decide : 0 < row_limit) hpermits hanswered
  have hclosed := closed_of_load_rows hhosts_loaded hsequences_loaded hperm hsubset hrows
  exact ⟨table, db, fuel, s, hhosts ▸ htable, hsequences ▸ hvalue ▸ hdb, hload, hclosed,
    fun host_table hlength => hclosed.map_isSome hlength⟩

/-! ## One collection -/

def Answers.direct (snapshot : Snapshot) : Answers where
  hosts := some snapshot.host_rows
  sequences := some snapshot.sequence_rows
  value := snapshot.value_answer
  collections := slices snapshot.collection_rows

theorem readsFrom_direct {snapshot : Snapshot}
    (hnodup : (snapshot.host_rows.map fun row => (row.host_id, row.oid_suffix_mapping_id)).Nodup)
    (hsorted : SortedBy Row.key snapshot.collection_rows) :
    (Answers.direct snapshot).ReadsFrom snapshot where
  hosts := ⟨_, rfl, List.Subset.refl _, hnodup, fun _ => List.mem_map_of_mem⟩
  sequences := ⟨_, rfl, .refl _⟩
  value := rfl
  answered _ := ⟨_, rfl⟩
  permits _ _ hanswer := ⟨snapshot.collection_rows, ⟨.refl _, hsorted⟩,
    (Option.some.inj hanswer).symm⟩

def oneCollection (host_id : Int32) : Snapshot where
  host := [⟨host_id, "10.0.0.1".toList, "public".toList⟩]
  collection_class := [⟨1, "traffic".toList, 60⟩]
  collection := [⟨1, host_id, "a.rrd".toList, "port1".toList, 1, some 3⟩]
  collection_instantiation := [⟨1, -1⟩]
  oid_suffix_mapping := [⟨3, 4⟩]
  oid_suffix_mapping_value :=
    [⟨4, ifDescr, some 5⟩, ⟨5, "1.3.6.1.2.1.17.1.4.1.2".toList, none⟩]
  collection_class_collection_fk := by simp
  collection_ibfk_1 := by simp
  suffix_mapping_collection_fk := by simp
  collection_collection_instantiation_fk := by simp
  oid_suffix_mapping_map_type_fk := by simp
  oid_suffix_mapping_value_oid_suffix_mapping_value_fk := by simp

def oneRow (host_id : Int32) : Row :=
  ⟨1, 60, "traffic".toList, host_id, some 3, "a.rrd".toList, "port1".toList⟩

theorem collection_rows_oneCollection (host_id : Int32) :
    (oneCollection host_id).collection_rows = [oneRow host_id] := by
  simp [Snapshot.collection_rows, oneCollection, join, oneRow]

theorem readsFrom_oneCollection (host_id : Int32) :
    (Answers.direct (oneCollection host_id)).ReadsFrom (oneCollection host_id) := by
  refine readsFrom_direct ?_ ?_
  · simp [Snapshot.host_rows, oneCollection, join, leftJoin]
  · rw [collection_rows_oneCollection]
    exact List.pairwise_singleton _ _

theorem loads_oneCollection :
    ∃ table db fuel s,
      load_hosts (Answers.direct (oneCollection 7)).hosts 0 .empty = .ok table ∧
      load_mapping_sequences (Answers.direct (oneCollection 7)).sequences
        (Answers.direct (oneCollection 7)).value .empty = .ok db ∧
      load_collection_classes db (Answers.direct (oneCollection 7)).collections fuel table =
        some (.ok s) ∧
      Closed (oneCollection 7).collection_rows ⟨s.host_table, db, s.collection_class⟩ ∧
      ∀ host_table : Host_Info_Table, host_table.host.length = s.host_table.host.length →
        (map_collection_suffixes ⟨host_table, db, s.collection_class⟩).isSome := by
  refine loads_closed (oneCollection 7) (.direct _) (readsFrom_oneCollection 7) ?_ 0
  intro row hrow
  rw [collection_rows_oneCollection, List.mem_singleton] at hrow
  rw [hrow]
  decide

/-- A row of host -1 that opens a class looks like one of a host that has been entered. -/
theorem load_row_reserved_host {seq : Option OID_mapping_sequence}
    (hclass : s.last_db_id ≠ row.collection_class_id) (hhost : row.host_id = -1)
    (hseq : row_sequence db row = .ok seq) : load_row db s row = .error .undefined := by
  rw [load_row, enter_class_new hclass, enter_host_same hhost.symm, ok_bind, enter_collection, hseq,
    ok_bind]
  simp only [element_at_last, ok_bind]
  rfl

theorem undefined_at_reserved_id :
    ∃ (snapshot : Snapshot) (answers : Answers), answers.ReadsFrom snapshot ∧
      ∀ mapping_done table db, load_hosts answers.hosts mapping_done .empty = .ok table →
        load_mapping_sequences answers.sequences answers.value .empty = .ok db →
        load_collection_classes db answers.collections 1 table = some (.error .undefined) := by
  refine ⟨oneCollection (-1), .direct _, readsFrom_oneCollection (-1), ?_⟩
  intro mapping_done table db _ hdb
  obtain ⟨db', hdb', hloaded⟩ := load_mapping_sequences_ok Snapshot.text_of_value_answer
    (fun row (hrow : row ∈ (oneCollection (-1)).sequence_rows) =>
      Snapshot.text_of_sequence_row hrow)
  obtain rfl : db' = db := Except.ok.inj (hdb'.symm.trans hdb)
  have hmapping : (oneRow (-1)).oid_suffix_mapping_id = some 3 := rfl
  obtain ⟨sequence_row, hmem, hid⟩ := @Snapshot.exists_sequence_row (oneCollection (-1)) _
    (List.mem_singleton_self _) _ hmapping
  obtain ⟨seq, hseq, -⟩ := hloaded.exists_sequence hmem
  rw [hid, ← sequence_of_collection_of hmapping] at hseq
  have hfound : row_sequence db' (oneRow (-1)) = .ok (some seq) := by
    rw [row_sequence, hmapping]
    simp only [hseq]
  have hclass : (-1 : Int32) ≠ 1 := by decide
  have hrow : load_row db' (Loading.start table) (oneRow (-1)) = .error .undefined :=
    load_row_reserved_host hclass rfl hfound
  have hpage : slices (oneCollection (-1)).collection_rows row_limit 0 = some [oneRow (-1)] := by
    rw [collection_rows_oneCollection]
    rfl
  have hload : load_collection_class_block db' (slices (oneCollection (-1)).collection_rows)
      row_limit 0 (Loading.start table) = .error .undefined := by
    rw [load_block_eq (atEnd_start table) hpage, List.foldlM_cons, hrow]
    rfl
  rw [load_collection_classes, load_blocks, Answers.direct, hload]

end SnappCollector.Config
