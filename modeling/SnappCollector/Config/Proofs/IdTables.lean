import Mathlib.Data.List.Dedup
import Mathlib.Data.List.Induction
import SnappCollector.Config.IdTables
import SnappCollector.Config.Proofs.LoadedTables

/-!
# Ids and positions

A table holds the first entry with every id, in the order of insertion, and its maps lead
every id that was inserted to that entry.  For the hosts this holds of all ids that there are;
an `int`, as it is returned and as the maps of the sequences store it, holds the first `2 ^ 31`
positions.
-/

namespace SnappCollector.Config

open CLib Collection Data

/-! ## Positions as integers -/

theorem toInt_position {p : Nat} (hp : p < 2 ^ 31) : (UInt32.ofNat p).toInt32.toInt = p := by
  rw [UInt32.toInt32_ofNat', Int32.toInt_ofNat_of_lt hp]

theorem index_of_int_ofNat {p : Nat} (hp : p < 2 ^ 31) :
    IdTables.index_of_int (Int32.ofNat p) = p := by
  have hint : (p : Int) ≤ Int32.maxValue.toInt := by
    rw [Int32.toInt_maxValue]
    omega
  rw [IdTables.index_of_int, Int32.toInt64_ofNat' hint, Int64.toUInt64_ofNat',
    UInt64.toNat_ofNat_of_lt' (by simp [UInt64.size]; omega)]

/-! ## Hosts -/

structure HostsIndexed (calls : List Host_Info) (table : Host_Info_Table) : Prop where
  firsts : Firsts Host_Info.db_id calls table.host
  index : Indexes UInt32.ofNat table.db_id_to_index (table.host.map Host_Info.db_id)

section Hosts

variable {calls : List Host_Info} {table : Host_Info_Table} {next : Host_Info}

theorem hostsIndexed_insert (h : HostsIndexed calls table) :
    HostsIndexed (calls ++ [next]) (table.insert_new_host next).2 := by
  rcases insert_new_host_cases h.index next with ⟨hknown, hsame⟩ | ⟨hnew, hhost, hindex⟩
  · rw [hsame]
    exact ⟨h.firsts.skip hknown, h.index⟩
  · refine ⟨?_, ?_⟩
    · rw [hhost]
      exact h.firsts.append hnew
    · rw [hhost]
      exact hindex

theorem prefix_insert_new_host (table : Host_Info_Table) (next : Host_Info) :
    table.host <+: (table.insert_new_host next).2.host := by
  rw [Host_Info_Table.insert_new_host]
  split
  · exact List.prefix_append _ _
  · exact List.prefix_rfl

theorem lookup_insert_new_host (table : Host_Info_Table) (next : Host_Info) :
    (table.insert_new_host next).2.db_id_to_index.lookup next.db_id =
      some (table.insert_new_host next).1 := by
  rw [Host_Info_Table.insert_new_host]
  split
  · exact AList.lookup_insert _
  next position hfound => exact hfound

theorem hosts_after_append (calls : List Host_Info) (next : Host_Info) :
    hosts_after (calls ++ [next]) = ((hosts_after calls).insert_new_host next).2 :=
  List.foldl_append ..

theorem hostsIndexed_hosts_after (calls : List Host_Info) :
    HostsIndexed calls (hosts_after calls) := by
  induction calls using List.reverseRecOn with
  | nil => exact ⟨.nil _, .empty _⟩
  | append_singleton calls next ih =>
      rw [hosts_after_append]
      exact hostsIndexed_insert ih

theorem prefix_hosts_after (calls more : List Host_Info) :
    (hosts_after calls).host <+: (hosts_after (calls ++ more)).host := by
  induction more using List.reverseRecOn with
  | nil => rw [List.append_nil]
  | append_singleton more next ih =>
      rw [← List.append_assoc, hosts_after_append]
      exact ih.trans (prefix_insert_new_host _ next)

theorem positions_hosts_after (calls : List Host_Info) :
    Positions Host_Info.db_id
      (fun id => ((hosts_after calls).db_id_to_index.lookup id).map UInt32.toNat) calls
      (hosts_after calls).host := by
  obtain ⟨hfirsts, hindex⟩ := hostsIndexed_hosts_after calls
  refine hfirsts.positions hindex fun p hp => UInt32.toNat_ofNat_of_lt' (hp.trans_le ?_)
  have hle := length_le_of_nodup hfirsts.nodup
  rwa [List.length_map] at hle

theorem lookup_of_inserted (before rest : List Host_Info) (next : Host_Info) :
    (hosts_after (before ++ next :: rest)).db_id_to_index.lookup next.db_id =
      some ((hosts_after before).insert_new_host next).1 := by
  have hlookup := lookup_insert_new_host (hosts_after before) next
  rw [← hosts_after_append] at hlookup
  have hgrows := prefix_hosts_after (before ++ [next]) rest
  rw [← List.append_cons] at hgrows
  exact (hostsIndexed_hosts_after _).index.lookup_of_prefix (hostsIndexed_hosts_after _).index
    (hgrows.map _) hlookup

end Hosts

/-- The host table after any calls of `insert_new_host`. -/
structure HostTableKept (calls : List Host_Info) : Prop where
  positions : Positions Host_Info.db_id
    (fun id => ((hosts_after calls).db_id_to_index.lookup id).map UInt32.toNat) calls
    (hosts_after calls).host
  /-- what stands at a position stays there -/
  grows : ∀ more, (hosts_after calls).host <+: (hosts_after (calls ++ more)).host
  returned : ∀ before next rest, calls = before ++ next :: rest →
    ∃ p, ((hosts_after calls).db_id_to_index.lookup next.db_id).map UInt32.toNat = some p ∧
      (p < 2 ^ 31 → ((hosts_after before).inserted_position next).toInt = p)
  get : ∀ db_id : UInt32,
    ((hosts_after calls).get_host_for_db_id db_id).bind ((hosts_after calls).host[·]?) =
      calls.find? (·.db_id = db_id.toInt32)
  get_eq_none_iff : ∀ db_id : UInt32, (hosts_after calls).get_host_for_db_id db_id = none ↔
    db_id.toInt32 ∉ calls.map Host_Info.db_id

theorem hostTableKept (calls : List Host_Info) : HostTableKept calls where
  positions := positions_hosts_after calls
  grows := prefix_hosts_after calls
  returned := by
    rintro before next rest rfl
    refine ⟨_, congrArg (Option.map UInt32.toNat) (lookup_of_inserted before rest next), ?_⟩
    intro hp
    have htoInt := toInt_position hp
    rwa [UInt32.ofNat_toNat] at htoInt
  get db_id := (positions_hosts_after calls).first db_id.toInt32
  get_eq_none_iff db_id := by
    rw [← (positions_hosts_after calls).isSome_iff, Option.not_isSome_iff_eq_none]
    rfl

/-! ## Sequences -/

namespace IdTables

/-- Two sequences have the same name exactly when they have the same id. -/
def SameNames (calls : List OID_mapping_sequence) : Prop :=
  ∀ a ∈ calls, ∀ b ∈ calls, a.name = b.name ↔ a.db_id = b.db_id

structure SequencesIndexed (calls : List OID_mapping_sequence) (db : OID_mapping_sequence_db) :
    Prop where
  firsts : Firsts (·.db_id) calls db.mapping
  names : Firsts OID_mapping_sequence.name calls db.mapping
  index : Indexes Int32.ofNat db.db_id_to_index (db.mapping.map (·.db_id))
  name_index : Indexes Int32.ofNat db.name_to_index (db.mapping.map OID_mapping_sequence.name)

section Sequences

variable {calls : List OID_mapping_sequence} {db : OID_mapping_sequence_db}
  {next : OID_mapping_sequence}

theorem SameNames.of_append {more : List OID_mapping_sequence}
    (h : SameNames (calls ++ more)) : SameNames calls :=
  fun a ha b hb => h a (List.mem_append_left _ ha) b (List.mem_append_left _ hb)

theorem SequencesIndexed.mem_names_iff (h : SequencesIndexed calls db)
    (hnames : SameNames (calls ++ [next])) :
    next.name ∈ db.mapping.map OID_mapping_sequence.name ↔
      next.db_id ∈ db.mapping.map (·.db_id) := by
  have hnext : next ∈ calls ++ [next] := List.mem_append_right _ (List.mem_singleton_self _)
  have hsame : ∀ a ∈ db.mapping, a.name = next.name ↔ a.db_id = next.db_id := by
    intro a ha
    exact hnames a (List.mem_append_left _ (List.mem_of_find?_eq_some (h.firsts.first a ha)))
      next hnext
  simp only [List.mem_map]
  constructor
  · rintro ⟨a, ha, hname⟩
    exact ⟨a, ha, (hsame a ha).mp hname⟩
  · rintro ⟨a, ha, hid⟩
    exact ⟨a, ha, (hsame a ha).mpr hid⟩

theorem sequencesIndexed_insert (h : SequencesIndexed calls db)
    (hnames : SameNames (calls ++ [next])) :
    SequencesIndexed (calls ++ [next]) (db.insert_new_sequence next).2 := by
  have hmem := h.mem_names_iff hnames
  rw [OID_mapping_sequence_db.insert_new_sequence]
  split
  next hnew =>
    have hid := h.index.lookup_eq_none_iff.mp hnew
    have hname : next.name ∉ db.mapping.map OID_mapping_sequence.name := fun hin =>
      hid (hmem.mp hin)
    refine ⟨h.firsts.append hid, h.names.append hname, ?_, ?_⟩
    · simpa using h.index.insert hid
    · simpa using h.name_index.insert hname
  next position hfound =>
    have hid := h.index.mem_of_lookup hfound
    exact ⟨h.firsts.skip hid, h.names.skip (hmem.mpr hid), h.index, h.name_index⟩

theorem prefix_insert_new_sequence (db : OID_mapping_sequence_db) (next : OID_mapping_sequence) :
    db.mapping <+: (db.insert_new_sequence next).2.mapping := by
  rw [OID_mapping_sequence_db.insert_new_sequence]
  split
  · exact List.prefix_append _ _
  · exact List.prefix_rfl

theorem lookup_insert_new_sequence (db : OID_mapping_sequence_db)
    (next : OID_mapping_sequence) :
    (db.insert_new_sequence next).2.db_id_to_index.lookup next.db_id =
      some (db.insert_new_sequence next).1 := by
  rw [OID_mapping_sequence_db.insert_new_sequence]
  split
  · exact AList.lookup_insert _
  next position hfound => exact hfound

theorem sequences_after_append (calls : List OID_mapping_sequence)
    (next : OID_mapping_sequence) :
    sequences_after (calls ++ [next]) = ((sequences_after calls).insert_new_sequence next).2 :=
  List.foldl_append ..

theorem sequencesIndexed_sequences_after (hnames : SameNames calls) :
    SequencesIndexed calls (sequences_after calls) := by
  induction calls using List.reverseRecOn with
  | nil => exact ⟨.nil _, .nil _, .empty _, .empty _⟩
  | append_singleton calls next ih =>
      rw [sequences_after_append]
      exact sequencesIndexed_insert (ih hnames.of_append) hnames

theorem prefix_sequences_after (calls more : List OID_mapping_sequence) :
    (sequences_after calls).mapping <+: (sequences_after (calls ++ more)).mapping := by
  induction more using List.reverseRecOn with
  | nil => rw [List.append_nil]
  | append_singleton more next ih =>
      rw [← List.append_assoc, sequences_after_append]
      exact ih.trans (prefix_insert_new_sequence _ next)

def FewIds (calls : List OID_mapping_sequence) : Prop :=
  (calls.map (·.db_id)).dedup.length ≤ 2 ^ 31

theorem lt_of_fewIds (hnames : SameNames calls) (hfew : FewIds calls) {p : Nat}
    (hp : p < (sequences_after calls).mapping.length) : p < 2 ^ 31 := by
  rw [(sequencesIndexed_sequences_after hnames).firsts.length_eq] at hp
  exact hp.trans_le hfew

theorem positions_by_id (hnames : SameNames calls) (hfew : FewIds calls) :
    Positions (·.db_id)
      (fun id => ((sequences_after calls).db_id_to_index.lookup id).map index_of_int) calls
      (sequences_after calls).mapping := by
  obtain ⟨hfirsts, -, hindex, -⟩ := sequencesIndexed_sequences_after hnames
  exact hfirsts.positions hindex fun p hp => index_of_int_ofNat (lt_of_fewIds hnames hfew hp)

theorem positions_by_name (hnames : SameNames calls) (hfew : FewIds calls) :
    Positions OID_mapping_sequence.name (sequences_after calls).get_sequence_by_name calls
      (sequences_after calls).mapping := by
  obtain ⟨-, hfirsts, -, hindex⟩ := sequencesIndexed_sequences_after hnames
  exact hfirsts.positions hindex fun p hp => index_of_int_ofNat (lt_of_fewIds hnames hfew hp)

theorem toInt_of_lookup (hnames : SameNames calls) (hfew : FewIds calls) {db_id position : Int32}
    (h : (sequences_after calls).db_id_to_index.lookup db_id = some position) :
    position.toInt = index_of_int position := by
  obtain ⟨-, -, hindex, -⟩ := sequencesIndexed_sequences_after hnames
  have hmem := hindex.mem_of_lookup h
  rw [hindex.lookup_of_mem hmem, Option.some.injEq] at h
  have hlt := List.idxOf_lt_length_iff.mpr hmem
  rw [List.length_map] at hlt
  have hsmall := lt_of_fewIds hnames hfew hlt
  rw [← h, index_of_int_ofNat hsmall, Int32.toInt_ofNat_of_lt hsmall]

theorem lookup_name_eq (hnames : SameNames calls) (hnext : next ∈ calls) :
    (sequences_after calls).name_to_index.lookup next.name =
      (sequences_after calls).db_id_to_index.lookup next.db_id := by
  obtain ⟨hfirsts, hnamed, hindex, hname_index⟩ := sequencesIndexed_sequences_after hnames
  have hsame : ∀ a ∈ (sequences_after calls).mapping,
      a.name = next.name ↔ a.db_id = next.db_id := fun a ha =>
    hnames a (List.mem_of_find?_eq_some (hfirsts.first a ha)) next hnext
  rw [hname_index.lookup_of_mem ((hnamed.keys _).mpr (List.mem_map_of_mem hnext)),
    hindex.lookup_of_mem ((hfirsts.keys _).mpr (List.mem_map.mpr ⟨next, hnext, rfl⟩)),
    idxOf_map_congr hsame]

theorem lookup_of_inserted {before rest : List OID_mapping_sequence}
    (hnames : SameNames (before ++ next :: rest)) :
    (sequences_after (before ++ next :: rest)).db_id_to_index.lookup next.db_id =
      some ((sequences_after before).insert_new_sequence next).1 := by
  rw [List.append_cons] at hnames ⊢
  have hlookup := lookup_insert_new_sequence (sequences_after before) next
  rw [← sequences_after_append] at hlookup
  exact (sequencesIndexed_sequences_after hnames.of_append).index.lookup_of_prefix
    (sequencesIndexed_sequences_after hnames).index
    ((prefix_sequences_after (before ++ [next]) rest).map _) hlookup

end Sequences

structure SequenceTablesKept (calls : List OID_mapping_sequence) : Prop where
  by_id : Positions (·.db_id)
    (fun id => ((sequences_after calls).db_id_to_index.lookup id).map index_of_int) calls
    (sequences_after calls).mapping
  by_name : Positions OID_mapping_sequence.name (sequences_after calls).get_sequence_by_name
    calls (sequences_after calls).mapping
  /-- what stands at a position stays there -/
  grows : ∀ more, (sequences_after calls).mapping <+: (sequences_after (calls ++ more)).mapping
  returned : ∀ before next rest, calls = before ++ next :: rest →
    ∃ p, ((sequences_after calls).db_id_to_index.lookup next.db_id).map index_of_int = some p ∧
      (sequences_after calls).get_sequence_by_name next.name = some p ∧
      ((sequences_after before).insert_new_sequence next).1.toInt = p
  get : ∀ db_id : UInt32, ((sequences_after calls).get_sequence_by_db_id db_id).bind
      ((sequences_after calls).mapping[·]?) = calls.find? (·.db_id = db_id.toInt32)
  get_eq_none_iff : ∀ db_id : UInt32,
    (sequences_after calls).get_sequence_by_db_id db_id = none ↔
      db_id.toInt32 ∉ calls.map (·.db_id)

theorem sequenceTablesKept {calls : List OID_mapping_sequence} (hnames : SameNames calls)
    (hfew : FewIds calls) : SequenceTablesKept calls where
  by_id := positions_by_id hnames hfew
  by_name := positions_by_name hnames hfew
  grows := prefix_sequences_after calls
  returned := by
    rintro before next rest rfl
    have hnext : next ∈ before ++ next :: rest := by simp
    have hlookup := lookup_of_inserted hnames
    refine ⟨_, congrArg (Option.map index_of_int) hlookup, ?_, toInt_of_lookup hnames hfew hlookup⟩
    rw [OID_mapping_sequence_db.get_sequence_by_name, lookup_name_eq hnames hnext, hlookup]
    rfl
  get db_id := (positions_by_id hnames hfew).first db_id.toInt32
  get_eq_none_iff db_id := by
    rw [← (positions_by_id hnames hfew).isSome_iff, Option.not_isSome_iff_eq_none]
    rfl

theorem id_tables_kept :
    (∀ calls : List Host_Info, HostTableKept calls) ∧
      ∀ calls, SameNames calls → FewIds calls → SequenceTablesKept calls :=
  ⟨hostTableKept, fun _ hnames hfew => sequenceTablesKept hnames hfew⟩

def twoSequences : List OID_mapping_sequence :=
  [⟨⟨7, [".1.3".toList]⟩, "if".toList⟩, ⟨⟨3, []⟩, "none".toList⟩, ⟨⟨7, []⟩, "if".toList⟩]

theorem id_tables_kept_twoSequences :
    (sequences_after twoSequences).mapping.length = 2 ∧ SequenceTablesKept twoSequences :=
  ⟨rfl, id_tables_kept.2 twoSequences (by unfold SameNames; decide) (by unfold FewIds; decide)⟩

/-! ## More ids than an `int` has positions -/

section Overflow

variable {n : Nat}

theorem ofNat_inj {i j : Nat} (hi : i < 2 ^ 32) (hj : j < 2 ^ 32)
    (h : Int32.ofNat i = Int32.ofNat j) : i = j := by
  have hunsigned := congrArg (fun x => x.toUInt32.toNat) h
  have hmod : i % 4294967296 = j % 4294967296 := by simpa using hunsigned
  omega

theorem toInt_neg {p : Nat} (hp : 2 ^ 31 ≤ p) (hlt : p < 2 ^ 32) :
    (Int32.ofNat p).toInt < 0 := by
  rw [Int32.toInt_ofNat', Int32.size, Int.bmod]
  split <;> omega

def numberedHost (i : Nat) : Host_Info := ⟨Int32.ofNat i, [], [], 0, ∅⟩

def numberedSequence (i : Nat) : OID_mapping_sequence := ⟨⟨Int32.ofNat i, []⟩, dec i⟩

def numbered (n : Nat) : List OID_mapping_sequence := (List.range n).map numberedSequence

theorem nodup_ids (hn : n ≤ 2 ^ 32) : ((List.range n).map Int32.ofNat).Nodup := by
  refine List.nodup_range.map_on fun i hi j hj h => ?_
  rw [List.mem_range] at hi hj
  exact ofNat_inj (by omega) (by omega) h

theorem sameNames_numbered (hn : n ≤ 2 ^ 32) : SameNames (numbered n) := by
  intro a ha b hb
  obtain ⟨i, hi, rfl⟩ := List.mem_map.mp ha
  obtain ⟨j, hj, rfl⟩ := List.mem_map.mp hb
  rw [List.mem_range] at hi hj
  constructor
  · intro hname
    exact congrArg Int32.ofNat (dec_injective hname)
  · intro hid
    exact congrArg dec (ofNat_inj (by omega) (by omega) hid)

theorem map_db_id_numbered (n : Nat) :
    (numbered n).map (·.db_id) = (List.range n).map Int32.ofNat := by
  rw [numbered, List.map_map]
  rfl

theorem not_mem_ids (hn : n < 2 ^ 32) : Int32.ofNat n ∉ (List.range n).map Int32.ofNat := by
  intro hmem
  obtain ⟨i, hi, h⟩ := List.mem_map.mp hmem
  rw [List.mem_range] at hi
  have heq := ofNat_inj (hi.trans hn) hn h
  omega

/-- A position from `2 ^ 31` on comes back as a negative number. -/
theorem inserted_position_neg (hn : 2 ^ 31 ≤ n) (hlt : n < 2 ^ 32) :
    ((hosts_after ((List.range n).map numberedHost)).inserted_position (numberedHost n)).toInt
      < 0 := by
  obtain ⟨hfirsts, hindex⟩ := hostsIndexed_hosts_after ((List.range n).map numberedHost)
  have hids : ((List.range n).map numberedHost).map Host_Info.db_id =
      (List.range n).map Int32.ofNat := by
    rw [List.map_map]
    rfl
  have hlength := hfirsts.length_eq
  rw [hids, (nodup_ids hlt.le).dedup, List.length_map, List.length_range] at hlength
  have hnew := hindex.lookup_eq_none_iff.mpr fun hmem =>
    not_mem_ids hlt (hids ▸ (hfirsts.keys (Int32.ofNat n)).mp hmem)
  have hposition : (hosts_after ((List.range n).map numberedHost)).inserted_position
      (numberedHost n) = Int32.ofNat n := by
    rw [Host_Info_Table.inserted_position, Host_Info_Table.insert_new_host]
    split
    next => rw [UInt32.toInt32_ofNat', hlength]
    next position hfound => cases hnew.symm.trans hfound
  rw [hposition]
  exact toInt_neg hn hlt

theorem inserted_sequence_neg (hn : 2 ^ 31 ≤ n) (hlt : n < 2 ^ 32) :
    ((sequences_after (numbered n)).insert_new_sequence (numberedSequence n)).1.toInt < 0 := by
  obtain ⟨hfirsts, -, hindex, -⟩ := sequencesIndexed_sequences_after (sameNames_numbered hlt.le)
  have hlength := hfirsts.length_eq
  rw [map_db_id_numbered, (nodup_ids hlt.le).dedup, List.length_map, List.length_range] at hlength
  have hnew := hindex.lookup_eq_none_iff.mpr fun hmem =>
    not_mem_ids hlt (map_db_id_numbered n ▸ (hfirsts.keys (Int32.ofNat n)).mp hmem)
  have hposition : ((sequences_after (numbered n)).insert_new_sequence (numberedSequence n)).1 =
      Int32.ofNat n := by
    rw [OID_mapping_sequence_db.insert_new_sequence]
    split
    next => exact congrArg Int32.ofNat hlength
    next position hfound => cases hnew.symm.trans hfound
  rw [hposition]
  exact toInt_neg hn hlt

theorem not_sequenceTablesKept (hn : 2 ^ 31 ≤ n) (hlt : n < 2 ^ 32) :
    ¬SequenceTablesKept (numbered (n + 1)) := by
  intro h
  obtain ⟨p, -, -, hp⟩ := h.returned (numbered n) (numberedSequence n) [] (by
    rw [numbered, List.range_succ, List.map_append]
    rfl)
  have hneg := inserted_sequence_neg hn hlt
  omega

end Overflow

/-- With `2 ^ 31 + 1` ids, the last insertion returns a negative number. -/
theorem id_tables_overflow :
    ((hosts_after ((List.range (2 ^ 31)).map numberedHost)).inserted_position
        (numberedHost (2 ^ 31))).toInt < 0 ∧
      SameNames (numbered (2 ^ 31 + 1)) ∧ ¬SequenceTablesKept (numbered (2 ^ 31 + 1)) :=
  ⟨inserted_position_neg le_rfl (by omega), sameNames_numbered (by omega),
    not_sequenceTablesKept le_rfl (by omega)⟩

/-! ## The table without the names -/

structure Forgets (db : OID_mapping_sequence_db) (db' : Config.OID_mapping_sequence_db) :
    Prop where
  mapping : db'.mapping = db.mapping.map (·.toOID_mapping_sequence)
  lookup : ∀ db_id,
    db'.db_id_to_index.lookup db_id = (db.db_id_to_index.lookup db_id).map index_of_int

section Forget

variable {calls : List OID_mapping_sequence} {db : OID_mapping_sequence_db}
  {db' : Config.OID_mapping_sequence_db} {next : OID_mapping_sequence}

theorem Forgets.get_sequence_by_db_id (h : Forgets db db') (db_id : UInt32) :
    db'.get_sequence_by_db_id db_id =
      ((db.get_sequence_by_db_id db_id).bind (db.mapping[·]?)).map (·.toOID_mapping_sequence) := by
  rw [Config.OID_mapping_sequence_db.get_sequence_by_db_id, h.lookup, h.mapping,
    OID_mapping_sequence_db.get_sequence_by_db_id]
  cases db.db_id_to_index.lookup db_id.toInt32 with
  | none => rfl
  | some position => simp

theorem Forgets.insert (h : Forgets db db')
    (hfits : (db.insert_new_sequence next).2.mapping.length ≤ 2 ^ 31) :
    Forgets (db.insert_new_sequence next).2
      (db'.insert_new_sequence next.toOID_mapping_sequence).2 := by
  have hlookup := h.lookup next.db_id
  rw [OID_mapping_sequence_db.insert_new_sequence] at hfits ⊢
  split at hfits
  next hnew =>
    rw [hnew, Option.map_none] at hlookup
    obtain ⟨hmapping, hindex⟩ := insert_new_sequence_of_new hlookup
    rw [List.length_append, List.length_singleton] at hfits
    refine ⟨by rw [hmapping, h.mapping, List.map_append]; rfl, fun db_id => ?_⟩
    rw [hindex, h.mapping, List.length_map]
    by_cases hid : db_id = next.db_id
    · rw [hid, AList.lookup_insert, AList.lookup_insert, Option.map_some,
        index_of_int_ofNat hfits]
    · rw [AList.lookup_insert_ne hid, AList.lookup_insert_ne hid, h.lookup]
  next position hfound =>
    rw [hfound, Option.map_some] at hlookup
    rw [insert_new_sequence_of_known hlookup]
    exact h

theorem length_mapping (hnames : SameNames calls) :
    (sequences_after calls).mapping.length = (calls.map (·.db_id)).dedup.length :=
  (sequencesIndexed_sequences_after hnames).firsts.length_eq

/-- Without the names, the tables are the one that the configuration is loaded with. -/
theorem forgets_sequences_after (hnames : SameNames calls) (hfew : FewIds calls) :
    Forgets (sequences_after calls)
      (calls.foldl (fun db next => (db.insert_new_sequence next.toOID_mapping_sequence).2)
        .empty) := by
  induction calls using List.reverseRecOn with
  | nil => exact ⟨rfl, fun _ => rfl⟩
  | append_singleton calls next ih =>
      rw [FewIds, ← length_mapping hnames] at hfew
      have hless := (prefix_sequences_after calls [next]).length_le
      rw [length_mapping hnames.of_append] at hless
      have hbefore := ih hnames.of_append (hless.trans hfew)
      rw [List.foldl_append]
      rw [sequences_after_append] at hfew ⊢
      exact hbefore.insert hfew

end Forget

end IdTables

end SnappCollector.Config
