import Mathlib.Data.FinEnum
import SnappCollector.Config.LoadTables
import SnappCollector.Data.IndexMap
import SnappCollector.Data.Loops

/-!
# What the loaders of the hosts and the sequences leave behind

Every id of a row leads to a host, or a sequence, with that id, and the tables of a
host stand under their own OIDs.
-/

namespace SnappCollector.Config

open CLib Collection Data

/-! ## Hosts -/

def Keyed (info : Host_Info) : Prop :=
  ∀ x table, info.oid_table.lookup x = some table → table.oid = x

def db_ids (hosts : List Host_Info) : List Int32 := hosts.map Host_Info.db_id

theorem keyed_insert {info : Host_Info} (hkeyed : Keyed info) (oid : CStr) :
    Keyed { info with oid_table := info.oid_table.insert oid ⟨oid, ∅⟩ } := by
  intro x table hlookup
  by_cases hx : x = oid
  · rw [hx, AList.lookup_insert, Option.some.injEq] at hlookup
    rw [hx, ← hlookup]
  · rw [AList.lookup_insert_ne hx] at hlookup
    exact hkeyed x table hlookup

theorem keyed_host_of_row (mapping_done : Int32) (row : HostRow) :
    Keyed (host_of_row mapping_done row) := by
  cases hoid : row.OID with
  | none =>
      intro x table hlookup
      simp [host_of_row, hoid] at hlookup
  | some oid =>
      have hempty : Keyed { host_of_row mapping_done row with oid_table := ∅ } := by
        intro x table hlookup
        simp at hlookup
      simpa [host_of_row, hoid] using keyed_insert hempty oid

structure HostsLoaded (rows : List HostRow) (table : Host_Info_Table) : Prop where
  index : Indexes UInt32.ofNat table.db_id_to_index (db_ids table.host)
  covers : ∀ row ∈ rows, row.host_id ∈ db_ids table.host
  keyed : ∀ info ∈ table.host, Keyed info

theorem insert_new_host_cases {table : Host_Info_Table}
    (hindex : Indexes UInt32.ofNat table.db_id_to_index (db_ids table.host)) (next : Host_Info) :
    (next.db_id ∈ db_ids table.host ∧ (table.insert_new_host next).2 = table) ∨
      next.db_id ∉ db_ids table.host ∧
        (table.insert_new_host next).2.host = table.host ++ [next] ∧
        Indexes UInt32.ofNat (table.insert_new_host next).2.db_id_to_index
          (db_ids (table.host ++ [next])) := by
  rw [Host_Info_Table.insert_new_host]
  split
  next hnew =>
    have hnotin := hindex.lookup_eq_none_iff.mp hnew
    refine .inr ⟨hnotin, rfl, ?_⟩
    simpa [db_ids] using hindex.insert hnotin
  next position hfound => exact .inl ⟨hindex.mem_of_lookup hfound, rfl⟩

theorem hostsLoaded_insert {rows : List HostRow} {table : Host_Info_Table} {row : HostRow}
    (hloaded : HostsLoaded rows table) (mapping_done : Int32) :
    HostsLoaded (rows ++ [row])
      (table.insert_new_host (host_of_row mapping_done row)).2 := by
  obtain ⟨hindex, hcovers, hkeyed⟩ := hloaded
  rcases insert_new_host_cases hindex (host_of_row mapping_done row) with
    ⟨hknown, hsame⟩ | ⟨-, hhost, hindex'⟩
  · rw [hsame]
    refine ⟨hindex, fun row' hrow' => ?_, hkeyed⟩
    rcases List.mem_append.mp hrow' with hold | hlast
    · exact hcovers row' hold
    · rw [List.mem_singleton.mp hlast]
      exact hknown
  · refine ⟨by rwa [hhost], fun row' hrow' => ?_, fun info hinfo => ?_⟩
    · rw [hhost, db_ids, List.map_append, List.mem_append]
      rcases List.mem_append.mp hrow' with hold | hlast
      · exact .inl (hcovers row' hold)
      · rw [List.mem_singleton.mp hlast]
        exact .inr (List.mem_singleton_self _)
    · rw [hhost] at hinfo
      rcases List.mem_append.mp hinfo with hold | hlast
      · exact hkeyed info hold
      · exact List.mem_singleton.mp hlast ▸ keyed_host_of_row mapping_done row

theorem load_hosts_ok (rows : List HostRow) (mapping_done : Int32) :
    ∃ table, load_hosts (some rows) mapping_done .empty = .ok table ∧ HostsLoaded rows table := by
  refine ⟨_, rfl, ?_⟩
  have hloop : ∀ (next done : List HostRow) (table : Host_Info_Table), HostsLoaded done table →
      HostsLoaded (done ++ next) (next.foldl (fun table row =>
        (table.insert_new_host (host_of_row mapping_done row)).2) table) := by
    intro next
    induction next with
    | nil => simp
    | cons row next ih =>
        intro done table hdone
        rw [List.foldl_cons, List.append_cons]
        exact ih _ _ (hostsLoaded_insert hdone mapping_done)
  refine hloop rows [] _ ⟨.empty _, by simp, by simp [Host_Info_Table.empty]⟩

/-- Ids are distinct, so the position of a host fits into the map. -/
theorem length_le_of_nodup {ids : List Int32} (h : ids.Nodup) : ids.length ≤ 2 ^ 32 :=
  h.length_le_card.trans_eq FinEnum.card_eq_fintypeCard.symm

theorem HostsLoaded.db_id_of_get_host {rows : List HostRow} {table : Host_Info_Table}
    (hloaded : HostsLoaded rows table) {id : Int32} {p : Nat}
    (hp : table.get_host_for_db_id id.toUInt32 = some p) :
    (db_ids table.host)[p]? = some id := by
  obtain ⟨i, hi, rfl⟩ := Option.map_eq_some_iff.mp hp
  rw [Int32.toInt32_toUInt32, hloaded.index.lookup] at hi
  split at hi
  next hmem =>
    have hlt := List.idxOf_lt_length_iff.mpr hmem
    have hsmall := hlt.trans_le (length_le_of_nodup hloaded.index.nodup)
    rw [← Option.some.inj hi, UInt32.toNat_ofNat_of_lt' hsmall]
    exact List.getElem?_idxOf hmem
  next => cases hi

theorem HostsLoaded.exists_get_host {rows : List HostRow} {table : Host_Info_Table}
    (hloaded : HostsLoaded rows table) {row : HostRow} (hrow : row ∈ rows) :
    ∃ p, table.get_host_for_db_id row.host_id.toUInt32 = some p := by
  rw [Host_Info_Table.get_host_for_db_id, Int32.toInt32_toUInt32,
    hloaded.index.lookup_of_mem (hloaded.covers row hrow)]
  exact ⟨_, rfl⟩

/-! ## Sequences -/

theorem following_oids_ok {query2 : Int32 → Option (Option ValueRow)}
    (htexts : ∀ id row, query2 id = some (some row) → row.OID ≠ none) (steps : Nat) (id : Int32) :
    ∃ oids, following_oids query2 steps id = .ok oids := by
  induction steps generalizing id with
  | zero => exact ⟨[], rfl⟩
  | succ steps ih =>
      rw [following_oids]
      split
      · exact ⟨[], rfl⟩
      · exact ⟨[], rfl⟩
      next row hanswer =>
        obtain ⟨oid, hoid⟩ := Option.ne_none_iff_exists'.mp (htexts id row hanswer)
        rw [hoid]
        cases row.next_oid_suffix_mapping_value_id with
        | none => exact ⟨[oid], rfl⟩
        | some next =>
            obtain ⟨rest, hrest⟩ := ih next
            refine ⟨oid :: rest, ?_⟩
            simp only [field_text, ok_bind, hrest]
            rfl

theorem sequence_of_row_ok {query2 : Int32 → Option (Option ValueRow)}
    (htexts : ∀ id row, query2 id = some (some row) → row.OID ≠ none) {row : SequenceRow}
    (hrow : row.OID ≠ none) :
    ∃ seq, sequence_of_row query2 row = .ok seq ∧ seq.db_id = row.oid_suffix_mapping_id := by
  obtain ⟨oid, hoid⟩ := Option.ne_none_iff_exists'.mp hrow
  rw [sequence_of_row, hoid]
  cases row.next_oid_suffix_mapping_value_id with
  | none => exact ⟨⟨_, [oid]⟩, rfl, rfl⟩
  | some next =>
      obtain ⟨rest, hrest⟩ := following_oids_ok htexts max_sequence_length next
      refine ⟨⟨_, oid :: rest⟩, ?_, rfl⟩
      simp only [field_text, ok_bind, hrest]
      rfl

theorem exists_get_sequence {db : OID_mapping_sequence_db}
    (hindex : Indexes id db.db_id_to_index (db.mapping.map OID_mapping_sequence.db_id))
    {db_id : Int32} (hmem : db_id ∈ db.mapping.map OID_mapping_sequence.db_id) :
    ∃ seq ∈ db.mapping, db.get_sequence_by_db_id db_id.toUInt32 = some seq ∧
      seq.db_id = db_id := by
  have hget := List.getElem?_idxOf hmem
  rw [List.getElem?_map] at hget
  obtain ⟨seq, hseq, hid⟩ := Option.map_eq_some_iff.mp hget
  refine ⟨seq, List.mem_of_getElem? hseq, ?_, hid⟩
  rw [OID_mapping_sequence_db.get_sequence_by_db_id, Int32.toInt32_toUInt32,
    hindex.lookup_of_mem hmem]
  exact hseq

structure SequencesLoaded (rows : List SequenceRow) (db : OID_mapping_sequence_db) : Prop where
  index : Indexes id db.db_id_to_index (db.mapping.map OID_mapping_sequence.db_id)
  covers : ∀ row ∈ rows,
    row.oid_suffix_mapping_id ∈ db.mapping.map OID_mapping_sequence.db_id

theorem insert_new_sequence_of_known {db : OID_mapping_sequence_db} {seq : OID_mapping_sequence}
    {position : Nat} (h : db.db_id_to_index.lookup seq.db_id = some position) :
    (db.insert_new_sequence seq).2 = db := by
  rw [OID_mapping_sequence_db.insert_new_sequence]
  split
  next hnone => cases hnone.symm.trans h
  next => rfl

theorem insert_new_sequence_of_new {db : OID_mapping_sequence_db} {seq : OID_mapping_sequence}
    (h : db.db_id_to_index.lookup seq.db_id = none) :
    (db.insert_new_sequence seq).2.mapping = db.mapping ++ [seq] ∧
      (db.insert_new_sequence seq).2.db_id_to_index =
        db.db_id_to_index.insert seq.db_id db.mapping.length := by
  rw [OID_mapping_sequence_db.insert_new_sequence]
  split
  next => exact ⟨rfl, rfl⟩
  next position hsome => cases hsome.symm.trans h

theorem sequencesLoaded_insert {done : List SequenceRow} {row : SequenceRow}
    {db : OID_mapping_sequence_db} {seq : OID_mapping_sequence} (hdone : SequencesLoaded done db)
    (hid : seq.db_id = row.oid_suffix_mapping_id) :
    SequencesLoaded (done ++ [row]) (db.insert_new_sequence seq).2 := by
  obtain ⟨hindex, hcovers⟩ := hdone
  by_cases hknown : seq.db_id ∈ db.mapping.map OID_mapping_sequence.db_id
  · rw [insert_new_sequence_of_known (hindex.lookup_of_mem hknown)]
    refine ⟨hindex, fun row' hrow' => ?_⟩
    rcases List.mem_append.mp hrow' with hold | hlast
    · exact hcovers row' hold
    · rw [List.mem_singleton.mp hlast, ← hid]
      exact hknown
  · obtain ⟨hmapping, hmap⟩ := insert_new_sequence_of_new (hindex.lookup_eq_none_iff.mpr hknown)
    refine ⟨?_, fun row' hrow' => ?_⟩
    · rw [hmapping, hmap, List.map_append]
      simpa using hindex.insert hknown
    · rw [hmapping, List.map_append, List.mem_append]
      rcases List.mem_append.mp hrow' with hold | hlast
      · exact .inl (hcovers row' hold)
      · rw [List.mem_singleton.mp hlast, ← hid]
        exact .inr (List.mem_singleton_self _)

theorem load_mapping_sequences_ok {query2 : Int32 → Option (Option ValueRow)}
    (htexts : ∀ id row, query2 id = some (some row) → row.OID ≠ none) {rows : List SequenceRow}
    (hrows : ∀ row ∈ rows, row.OID ≠ none) :
    ∃ db, load_mapping_sequences (some rows) query2 .empty = .ok db ∧ SequencesLoaded rows db := by
  have hnone : SequencesLoaded [] .empty := ⟨.empty _, by simp⟩
  refine foldlM_ok hnone (List.prefix_refl rows) fun done row db hprefix hdone => ?_
  have hrow : row ∈ rows := hprefix.subset (by simp)
  obtain ⟨seq, hseq, hid⟩ := sequence_of_row_ok htexts (hrows row hrow)
  refine ⟨(db.insert_new_sequence seq).2, ?_, sequencesLoaded_insert hdone hid⟩
  simp only [hseq, ok_bind]
  rfl

theorem SequencesLoaded.exists_sequence {rows : List SequenceRow} {db : OID_mapping_sequence_db}
    (hloaded : SequencesLoaded rows db) {row : SequenceRow} (hrow : row ∈ rows) :
    ∃ seq, db.get_sequence_by_db_id row.oid_suffix_mapping_id.toUInt32 = some seq ∧
      seq.db_id = row.oid_suffix_mapping_id := by
  obtain ⟨seq, -, hseq⟩ := exists_get_sequence hloaded.index (hloaded.covers row hrow)
  exact ⟨seq, hseq⟩

end SnappCollector.Config
