import SnappCollector.Config.Database
import SnappCollector.Config.Proofs.LoadedTables
import SnappCollector.Data.Relations

/-!
# The chains of the mappings

The schema asks that the id of the next mapping value leads somewhere, not that a chain ends
or that its OIDs are texts.  Here the ids may lead anywhere: `load_mapping_sequences` stores
the chain of each mapping as far as its bound reaches.
-/

namespace SnappCollector.Config

open CLib Collection Data

/-! ## The tables of the mappings -/

structure MappingValueRecord where
  oid_suffix_mapping_value_id : Int32
  oid : Option CStr
  next_oid_suffix_mapping_value_id : Option Int32
deriving DecidableEq

/-- The two tables with their primary keys, and without the foreign keys. -/
structure MappingTables where
  oid_suffix_mapping : List OidSuffixMapping
  oid_suffix_mapping_value : List MappingValueRecord
  oid_suffix_mapping_key : (oid_suffix_mapping.map (·.oid_suffix_mapping_id)).Nodup
  oid_suffix_mapping_value_key :
    (oid_suffix_mapping_value.map (·.oid_suffix_mapping_value_id)).Nodup

namespace MappingTables

variable (tables : MappingTables)

def value_row (v : MappingValueRecord) : ValueRow := ⟨v.oid, v.next_oid_suffix_mapping_value_id⟩

def sequence_rows : List SequenceRow :=
  (join (fun (m : OidSuffixMapping) (v : MappingValueRecord) =>
      m.oid_suffix_mapping_value_id = v.oid_suffix_mapping_value_id)
    tables.oid_suffix_mapping tables.oid_suffix_mapping_value).map fun (m, v) =>
      ⟨value_row v, m.oid_suffix_mapping_id⟩

def value_of (id : Int32) : Option MappingValueRecord :=
  tables.oid_suffix_mapping_value.find? (·.oid_suffix_mapping_value_id = id)

def value_answer (id : Int32) : Option (Option ValueRow) :=
  some ((tables.value_of id).map value_row)

/-! ## Chains -/

def nth_value (first : Option Int32) : Nat → Option MappingValueRecord
  | 0 => first.bind tables.value_of
  | i + 1 => (nth_value first i).bind fun v =>
      v.next_oid_suffix_mapping_value_id.bind tables.value_of

/-- The OIDs of a chain, as far as it goes and at most `n`. -/
def ChainOids (n : Nat) (first : Option Int32) (oids : List CStr) : Prop :=
  oids.length ≤ n ∧ ∀ i < n, oids[i]?.map some = (tables.nth_value first i).map (·.oid)

def ChainsStored (db : OID_mapping_sequence_db) : Prop :=
  ∀ m ∈ tables.oid_suffix_mapping, ∃ seq,
    db.get_sequence_by_db_id m.oid_suffix_mapping_id.toUInt32 = some seq ∧
      seq.db_id = m.oid_suffix_mapping_id ∧
      tables.ChainOids 11 (some m.oid_suffix_mapping_value_id) seq.oid

/-- The chain of every mapping has a first value, and no OID that is read from it is NULL. -/
def Readable : Prop :=
  ∀ m ∈ tables.oid_suffix_mapping,
    tables.value_of m.oid_suffix_mapping_value_id ≠ none ∧
      ∀ i < 11, ∀ v, tables.nth_value (some m.oid_suffix_mapping_value_id) i = some v →
        v.oid ≠ none

variable {tables}

theorem nth_value_succ (first : Option Int32) (i : Nat) :
    tables.nth_value first (i + 1) = (first.bind tables.value_of).bind fun v =>
      tables.nth_value v.next_oid_suffix_mapping_value_id i := by
  induction i with
  | zero => rfl
  | succ i ih =>
      rw [nth_value, ih, Option.bind_assoc]
      rfl

theorem chainOids_zero {first : Option Int32} {oids : List CStr} :
    tables.ChainOids 0 first oids ↔ oids = [] := by
  constructor
  · exact fun h => List.eq_nil_of_length_eq_zero (Nat.le_zero.mp h.1)
  · rintro rfl
    exact ⟨le_rfl, fun i hi => absurd hi (Nat.not_lt_zero i)⟩

theorem chainOids_of_no_value {n : Nat} {first : Option Int32} {oids : List CStr}
    (hnone : first.bind tables.value_of = none) : tables.ChainOids n first oids ↔ oids = [] := by
  cases n with
  | zero => exact chainOids_zero
  | succ n =>
      constructor
      · intro h
        have hfirst := h.2 0 (Nat.succ_pos n)
        rw [nth_value, hnone] at hfirst
        cases oids with
        | nil => rfl
        | cons oid rest => cases hfirst
      · rintro rfl
        refine ⟨Nat.zero_le _, fun i _ => ?_⟩
        cases i with
        | zero => rw [nth_value, hnone]; rfl
        | succ i => rw [nth_value_succ, hnone]; rfl

theorem chainOids_none {n : Nat} {oids : List CStr} : tables.ChainOids n none oids ↔ oids = [] :=
  chainOids_of_no_value rfl

theorem chainOids_succ {n : Nat} {first : Option Int32} {oids : List CStr}
    {v : MappingValueRecord} (hv : first.bind tables.value_of = some v) :
    tables.ChainOids (n + 1) first oids ↔ ∃ oid rest, oids = oid :: rest ∧ v.oid = some oid ∧
      tables.ChainOids n v.next_oid_suffix_mapping_value_id rest := by
  have hnext : ∀ i, tables.nth_value first (i + 1) =
      tables.nth_value v.next_oid_suffix_mapping_value_id i := by
    intro i
    rw [nth_value_succ, hv, Option.bind_some]
  constructor
  · rintro ⟨hlength, hoids⟩
    have hfirst := hoids 0 (Nat.succ_pos n)
    rw [nth_value, hv] at hfirst
    cases oids with
    | nil => cases hfirst
    | cons oid rest =>
        refine ⟨oid, rest, rfl, (Option.some.inj hfirst).symm, Nat.le_of_succ_le_succ hlength, ?_⟩
        intro i hi
        have hoid := hoids (i + 1) (Nat.succ_lt_succ hi)
        rwa [hnext, List.getElem?_cons_succ] at hoid
  · rintro ⟨oid, rest, rfl, hoid, hlength, hrest⟩
    refine ⟨Nat.succ_le_succ hlength, fun i hi => ?_⟩
    cases i with
    | zero => rw [nth_value, hv, Option.map_some, hoid]; rfl
    | succ i =>
        rw [hnext, List.getElem?_cons_succ]
        exact hrest i (Nat.lt_of_succ_lt_succ hi)

theorem field_text_eq_ok_iff {field : Option CStr} {text : CStr} :
    field_text field = .ok text ↔ field = some text := by
  cases field with
  | none => exact ⟨nofun, nofun⟩
  | some text' => rw [field_text, Except.ok.injEq, Option.some.injEq]

theorem read_row_eq_ok_iff {β : Type} {n : Nat} (row : ValueRow) (f : CStr → List CStr → β)
    (b : β)
    (hfollowing : ∀ id oids,
      following_oids tables.value_answer n id = .ok oids ↔ tables.ChainOids n (some id) oids) :
    (do
      let oid ← field_text row.OID
      let rest ←
        match row.next_oid_suffix_mapping_value_id with
        | none => pure []
        | some next_db_id => following_oids tables.value_answer n next_db_id
      return f oid rest) = Except.ok b ↔
    ∃ oid rest, row.OID = some oid ∧
      tables.ChainOids n row.next_oid_suffix_mapping_value_id rest ∧ f oid rest = b := by
  cases row.next_oid_suffix_mapping_value_id with
  | none =>
      simp only [bind_eq_ok, field_text_eq_ok_iff, chainOids_none]
      constructor
      · rintro ⟨oid, hoid, rest, hrest, hb⟩
        cases hrest
        exact ⟨oid, [], hoid, rfl, Except.ok.inj hb⟩
      · rintro ⟨oid, rest, hoid, rfl, hb⟩
        exact ⟨oid, hoid, [], rfl, congrArg Except.ok hb⟩
  | some next =>
      simp only [bind_eq_ok, field_text_eq_ok_iff, hfollowing]
      constructor
      · rintro ⟨oid, hoid, rest, hrest, hb⟩
        exact ⟨oid, rest, hoid, hrest, Except.ok.inj hb⟩
      · rintro ⟨oid, rest, hoid, hrest, hb⟩
        exact ⟨oid, hoid, rest, hrest, congrArg Except.ok hb⟩

theorem following_oids_eq_ok_iff {n : Nat} {id : Int32} {oids : List CStr} :
    following_oids tables.value_answer n id = .ok oids ↔ tables.ChainOids n (some id) oids := by
  induction n generalizing id oids with
  | zero => rw [following_oids, chainOids_zero, Except.ok.injEq, eq_comm]
  | succ n ih =>
      rw [following_oids, value_answer]
      cases hv : tables.value_of id with
      | none =>
          have hnone : (some id).bind tables.value_of = none := hv
          rw [chainOids_of_no_value hnone, Option.map_none, Except.ok.injEq, eq_comm]
      | some v =>
          have hsome : (some id).bind tables.value_of = some v := hv
          rw [chainOids_succ hsome, Option.map_some]
          refine (read_row_eq_ok_iff (value_row v) List.cons oids fun _ _ => ih).trans ?_
          constructor
          · rintro ⟨oid, rest, hoid, hrest, hoids⟩
            exact ⟨oid, rest, hoids.symm, hoid, hrest⟩
          · rintro ⟨oid, rest, hoids, hoid, hrest⟩
            exact ⟨oid, rest, hoid, hrest, hoids.symm⟩

theorem sequence_of_row_eq_ok_iff {m : OidSuffixMapping} {v : MappingValueRecord}
    (hv : tables.value_of m.oid_suffix_mapping_value_id = some v) {seq : OID_mapping_sequence} :
    sequence_of_row tables.value_answer ⟨value_row v, m.oid_suffix_mapping_id⟩ = .ok seq ↔
      seq.db_id = m.oid_suffix_mapping_id ∧
        tables.ChainOids 11 (some m.oid_suffix_mapping_value_id) seq.oid := by
  have hsome : (some m.oid_suffix_mapping_value_id).bind tables.value_of = some v := hv
  rw [chainOids_succ hsome]
  refine (read_row_eq_ok_iff (value_row v)
    (fun oid rest => ⟨m.oid_suffix_mapping_id, oid :: rest⟩) seq
    fun _ _ => following_oids_eq_ok_iff).trans ?_
  constructor
  · rintro ⟨oid, rest, hoid, hrest, rfl⟩
    exact ⟨rfl, oid, rest, rfl, hoid, hrest⟩
  · rintro ⟨hid, oid, rest, hoids, hoid, hrest⟩
    obtain ⟨db_id, oid⟩ := seq
    cases hid
    cases hoids
    exact ⟨_, rest, hoid, hrest, rfl⟩

/-- Without a NULL in its way a chain has its OIDs. -/
theorem exists_chainOids_iff {n : Nat} {first : Option Int32} :
    (∃ oids, tables.ChainOids n first oids) ↔
      ∀ i < n, ∀ v, tables.nth_value first i = some v → v.oid ≠ none := by
  constructor
  · rintro ⟨oids, _, hoids⟩ i hi v hv hnull
    have hoid := hoids i hi
    rw [hv, Option.map_some, hnull] at hoid
    obtain ⟨oid, _, hsome⟩ := Option.map_eq_some_iff.mp hoid
    cases hsome
  · intro htexts
    induction n generalizing first with
    | zero => exact ⟨[], chainOids_zero.mpr rfl⟩
    | succ n ih =>
        cases hv : first.bind tables.value_of with
        | none => exact ⟨[], (chainOids_of_no_value hv).mpr rfl⟩
        | some v =>
            obtain ⟨oid, hoid⟩ := Option.ne_none_iff_exists'.mp (htexts 0 (Nat.succ_pos n) v hv)
            have hbehind : ∀ i < n, ∀ v',
                tables.nth_value v.next_oid_suffix_mapping_value_id i = some v' →
                v'.oid ≠ none := by
              intro i hi v' hv'
              apply htexts (i + 1) (Nat.succ_lt_succ hi) v'
              rw [nth_value_succ, hv, Option.bind_some, hv']
            obtain ⟨rest, hrest⟩ := ih hbehind
            exact ⟨oid :: rest, (chainOids_succ hv).mpr ⟨oid, rest, rfl, hoid, hrest⟩⟩

/-! ## The rows of the query -/

variable (tables) in
theorem length_filter_value_le (id : Int32) :
    (tables.oid_suffix_mapping_value.filter (id = ·.oid_suffix_mapping_value_id)).length ≤ 1 := by
  have hid : ∀ v ∈ tables.oid_suffix_mapping_value.filter (id = ·.oid_suffix_mapping_value_id),
      id = v.oid_suffix_mapping_value_id :=
    fun v hv => of_decide_eq_true (List.mem_filter.mp hv).2
  have hnodup := tables.oid_suffix_mapping_value_key.sublist
    ((List.filter_sublist (p := (id = ·.oid_suffix_mapping_value_id))).map _)
  generalize tables.oid_suffix_mapping_value.filter (id = ·.oid_suffix_mapping_value_id) = matching
    at hid hnodup
  match matching with
  | [] => exact Nat.zero_le _
  | [v] => exact le_rfl
  | v :: v' :: rest =>
      have hsame := (hid v (by simp)).symm.trans (hid v' (by simp))
      exact absurd hnodup (by simp [hsame])

theorem value_of_eq_some_iff {id : Int32} {v : MappingValueRecord} :
    tables.value_of id = some v ↔
      v ∈ tables.oid_suffix_mapping_value ∧ v.oid_suffix_mapping_value_id = id := by
  unfold value_of
  constructor
  · intro hv
    exact ⟨List.mem_of_find?_eq_some hv, of_decide_eq_true (List.find?_some hv :)⟩
  · rintro ⟨hv, hid⟩
    cases hfound : tables.oid_suffix_mapping_value.find? (·.oid_suffix_mapping_value_id = id) with
    | none => exact absurd (decide_eq_true hid) (List.find?_eq_none.mp hfound v hv)
    | some v' =>
        have hid' : v'.oid_suffix_mapping_value_id = id :=
          of_decide_eq_true (List.find?_some hfound :)
        rw [List.inj_on_of_nodup_map tables.oid_suffix_mapping_value_key
          (List.mem_of_find?_eq_some hfound) hv (hid'.trans hid.symm)]

theorem mem_sequence_rows {row : SequenceRow} :
    row ∈ tables.sequence_rows ↔ ∃ m ∈ tables.oid_suffix_mapping, ∃ v,
      tables.value_of m.oid_suffix_mapping_value_id = some v ∧
        row = ⟨value_row v, m.oid_suffix_mapping_id⟩ := by
  unfold sequence_rows
  rw [List.mem_map]
  constructor
  · rintro ⟨⟨m, v⟩, hmem, rfl⟩
    obtain ⟨hm, hv, hid⟩ := mem_join.mp hmem
    exact ⟨m, hm, v, value_of_eq_some_iff.mpr ⟨hv, (of_decide_eq_true hid).symm⟩, rfl⟩
  · rintro ⟨m, hm, v, hv, rfl⟩
    obtain ⟨hv, hid⟩ := value_of_eq_some_iff.mp hv
    exact ⟨(m, v), mem_join.mpr ⟨hm, hv, decide_eq_true hid.symm⟩, rfl⟩

end MappingTables

theorem db_id_of_sequence_of_row {query2 : Int32 → Option (Option ValueRow)} {row : SequenceRow}
    {seq : OID_mapping_sequence} (hseq : sequence_of_row query2 row = .ok seq) :
    seq.db_id = row.oid_suffix_mapping_id := by
  unfold sequence_of_row at hseq
  obtain ⟨oid, _, hrest⟩ := bind_eq_ok.mp hseq
  cases hnext : row.next_oid_suffix_mapping_value_id with
  | none =>
      rw [hnext] at hrest
      cases hrest
      rfl
  | some next =>
      rw [hnext] at hrest
      obtain ⟨rest, _, hseq⟩ := bind_eq_ok.mp hrest
      cases hseq
      rfl

structure SequencesRead (query2 : Int32 → Option (Option ValueRow)) (rows : List SequenceRow)
    (db : OID_mapping_sequence_db) : Prop where
  index : Indexes id db.db_id_to_index (db.mapping.map OID_mapping_sequence.db_id)
  read : List.Forall₂ (fun row seq => sequence_of_row query2 row = .ok seq) rows db.mapping

section Loading

variable {query2 : Int32 → Option (Option ValueRow)}

theorem SequencesRead.map_db_id {rows : List SequenceRow} {db : OID_mapping_sequence_db}
    (hread : SequencesRead query2 rows db) :
    db.mapping.map OID_mapping_sequence.db_id = rows.map SequenceRow.oid_suffix_mapping_id := by
  have hrows := hread.read
  clear hread
  generalize db.mapping = mapping at hrows
  induction hrows with
  | nil => rfl
  | cons hseq _ ih => rw [List.map_cons, List.map_cons, ih, db_id_of_sequence_of_row hseq]

theorem sequencesRead_insert {done : List SequenceRow} {row : SequenceRow}
    {db : OID_mapping_sequence_db} {seq : OID_mapping_sequence}
    (hdone : SequencesRead query2 done db) (hseq : sequence_of_row query2 row = .ok seq)
    (hnew : row.oid_suffix_mapping_id ∉ done.map SequenceRow.oid_suffix_mapping_id) :
    SequencesRead query2 (done ++ [row]) (db.insert_new_sequence seq).2 := by
  rw [← hdone.map_db_id, ← db_id_of_sequence_of_row hseq] at hnew
  have hlookup := hdone.index.lookup_eq_none_iff.mpr hnew
  rw [OID_mapping_sequence_db.insert_new_sequence]
  split
  next =>
    refine ⟨by simpa using hdone.index.insert hnew, ?_⟩
    exact List.rel_append hdone.read (.cons hseq .nil)
  next position hfound => exact absurd (hlookup.symm.trans hfound) (by simp)

theorem id_not_mem_done {rows done : List SequenceRow} {row : SequenceRow}
    (hnodup : (rows.map SequenceRow.oid_suffix_mapping_id).Nodup) (hdone : done ++ [row] <+: rows) :
    row.oid_suffix_mapping_id ∉ done.map SequenceRow.oid_suffix_mapping_id := by
  have hpart := hnodup.sublist (hdone.sublist.map SequenceRow.oid_suffix_mapping_id)
  rw [List.map_append] at hpart
  exact fun hmem => List.disjoint_of_nodup_append hpart hmem (by simp)

theorem load_mapping_sequences_read {rows : List SequenceRow}
    (hnodup : (rows.map SequenceRow.oid_suffix_mapping_id).Nodup)
    (hread : ∀ row ∈ rows, ∃ seq, sequence_of_row query2 row = .ok seq) :
    ∃ db, load_mapping_sequences (some rows) query2 .empty = .ok db ∧
      SequencesRead query2 rows db := by
  have hnone : SequencesRead query2 [] .empty := ⟨.empty _, .nil⟩
  refine foldlM_ok hnone (List.prefix_refl rows) fun done row db hall hdone => ?_
  obtain ⟨seq, hseq⟩ := hread row (hall.sublist.subset (by simp))
  refine ⟨(db.insert_new_sequence seq).2, ?_,
    sequencesRead_insert hdone hseq (id_not_mem_done hnodup hall)⟩
  simp only [hseq, ok_bind]
  rfl

theorem sequencesRead_of_load {rows : List SequenceRow} {db : OID_mapping_sequence_db}
    (hnodup : (rows.map SequenceRow.oid_suffix_mapping_id).Nodup)
    (hload : load_mapping_sequences (some rows) query2 .empty = .ok db) :
    SequencesRead query2 rows db := by
  have hnone : SequencesRead query2 [] .empty := ⟨.empty _, .nil⟩
  refine foldlM_of_ok hnone (List.prefix_refl rows) hload ?_
  intro done row db db' hall hdone hround
  obtain ⟨seq, hseq, hinsert⟩ := bind_eq_ok.mp hround
  cases hinsert
  exact sequencesRead_insert hdone hseq (id_not_mem_done hnodup hall)

theorem SequencesRead.exists_sequence {rows : List SequenceRow} {db : OID_mapping_sequence_db}
    (hread : SequencesRead query2 rows db) {row : SequenceRow} (hrow : row ∈ rows) :
    ∃ seq ∈ db.mapping, sequence_of_row query2 row = .ok seq := by
  obtain ⟨i, hi⟩ := List.getElem?_of_mem hrow
  obtain ⟨seq, hseq, hok⟩ := getElem?_of_forall₂ hread.read hi
  exact ⟨seq, List.mem_of_getElem? hseq, hok⟩

theorem SequencesRead.get_sequence {rows : List SequenceRow} {db : OID_mapping_sequence_db}
    (hread : SequencesRead query2 rows db) {seq : OID_mapping_sequence} (hseq : seq ∈ db.mapping) :
    db.get_sequence_by_db_id seq.db_id.toUInt32 = some seq := by
  obtain ⟨seq', hseq', hfound, hid⟩ :=
    exists_get_sequence hread.index (List.mem_map_of_mem hseq)
  rw [hfound, List.inj_on_of_nodup_map hread.index.nodup hseq' hseq hid]

end Loading

namespace MappingTables

variable {tables : MappingTables} {rows : List SequenceRow}

theorem nodup_rows (hrows : rows.Perm tables.sequence_rows) :
    (rows.map SequenceRow.oid_suffix_mapping_id).Nodup := by
  rw [(hrows.map _).nodup_iff, sequence_rows, List.map_map]
  have hone : ∀ m ∈ tables.oid_suffix_mapping, (tables.oid_suffix_mapping_value.filter
      (m.oid_suffix_mapping_value_id = ·.oid_suffix_mapping_value_id)).length ≤ 1 :=
    fun m _ => length_filter_value_le tables m.oid_suffix_mapping_value_id
  have hsub := @map_fst_join_sublist _ _ (fun (m : OidSuffixMapping) (v : MappingValueRecord) =>
    m.oid_suffix_mapping_value_id = v.oid_suffix_mapping_value_id) _ _ hone
  have hids := tables.oid_suffix_mapping_key.sublist (hsub.map (·.oid_suffix_mapping_id))
  rwa [List.map_map] at hids

theorem row_read_iff {m : OidSuffixMapping} {v : MappingValueRecord}
    (hv : tables.value_of m.oid_suffix_mapping_value_id = some v) :
    (∃ seq, sequence_of_row tables.value_answer ⟨value_row v, m.oid_suffix_mapping_id⟩ = .ok seq) ↔
      ∀ i < 11, ∀ v, tables.nth_value (some m.oid_suffix_mapping_value_id) i = some v →
        v.oid ≠ none := by
  rw [← exists_chainOids_iff]
  constructor
  · rintro ⟨seq, hseq⟩
    exact ⟨seq.oid, ((sequence_of_row_eq_ok_iff hv).mp hseq).2⟩
  · rintro ⟨oids, hoids⟩
    exact ⟨⟨m.oid_suffix_mapping_id, oids⟩, (sequence_of_row_eq_ok_iff hv).mpr ⟨rfl, hoids⟩⟩

end MappingTables

/-- Loading the sequences stores the chain of every mapping exactly if each has a first value
and no NULL among the OIDs that are read. -/
theorem loads_chains_iff (tables : MappingTables) {rows : List SequenceRow}
    (hrows : rows.Perm tables.sequence_rows) :
    (∃ db, load_mapping_sequences (some rows) tables.value_answer .empty = .ok db ∧
      tables.ChainsStored db) ↔ tables.Readable := by
  have hnodup := MappingTables.nodup_rows hrows
  have hmem : ∀ row, row ∈ rows ↔ row ∈ tables.sequence_rows := fun row => hrows.mem_iff
  constructor
  · rintro ⟨db, hload, hstored⟩ m hm
    have hread := sequencesRead_of_load hnodup hload
    obtain ⟨seq, hseq, hid, -⟩ := hstored m hm
    -- the sequence under the id of the mapping was read from a row of that mapping
    have hin : m.oid_suffix_mapping_id ∈ rows.map SequenceRow.oid_suffix_mapping_id := by
      rw [← hread.map_db_id, ← hid]
      obtain ⟨i, _, hget⟩ := Option.bind_eq_some_iff.mp hseq
      exact List.mem_map_of_mem (List.mem_of_getElem? hget)
    obtain ⟨row, hrow, hrowid⟩ := List.mem_map.mp hin
    obtain ⟨m', hm', v, hv, rfl⟩ := MappingTables.mem_sequence_rows.mp ((hmem row).mp hrow)
    obtain rfl := List.inj_on_of_nodup_map tables.oid_suffix_mapping_key hm' hm hrowid
    obtain ⟨seq', _, hseq'⟩ := hread.exists_sequence hrow
    exact ⟨hv ▸ Option.some_ne_none v, (MappingTables.row_read_iff hv).mp ⟨seq', hseq'⟩⟩
  · intro hreadable
    have hrows : ∀ row ∈ rows, ∃ seq, sequence_of_row tables.value_answer row = .ok seq := by
      intro row hrow
      obtain ⟨m, hm, v, hv, rfl⟩ := MappingTables.mem_sequence_rows.mp ((hmem row).mp hrow)
      exact (MappingTables.row_read_iff hv).mpr (hreadable m hm).2
    obtain ⟨db, hload, hread⟩ := load_mapping_sequences_read hnodup hrows
    refine ⟨db, hload, fun m hm => ?_⟩
    obtain ⟨v, hv⟩ := Option.ne_none_iff_exists'.mp (hreadable m hm).1
    have hrow : ⟨MappingTables.value_row v, m.oid_suffix_mapping_id⟩ ∈ rows :=
      (hmem _).mpr (MappingTables.mem_sequence_rows.mpr ⟨m, hm, v, hv, rfl⟩)
    obtain ⟨seq, hseq, hok⟩ := hread.exists_sequence hrow
    obtain ⟨hid, hoids⟩ := (MappingTables.sequence_of_row_eq_ok_iff hv).mp hok
    exact ⟨seq, hid ▸ hread.get_sequence hseq, hid, hoids⟩

def two_in_a_circle : MappingTables where
  oid_suffix_mapping := [⟨1, 4⟩]
  oid_suffix_mapping_value := [⟨4, some ".1.3.6".toList, some 5⟩, ⟨5, some ".1.3.7".toList, some 4⟩]
  oid_suffix_mapping_key := by decide
  oid_suffix_mapping_value_key := by decide

/-- The sequence of a mapping that leads back to its first value goes round five and a half
times. -/
theorem loads_circle :
    ∃ db, load_mapping_sequences (some two_in_a_circle.sequence_rows) two_in_a_circle.value_answer
      .empty = .ok db ∧ two_in_a_circle.ChainsStored db := by
  refine (loads_chains_iff two_in_a_circle (List.Perm.refl _)).mpr ?_
  unfold MappingTables.Readable
  decide

/-- The schema lets the OID of a mapping value be NULL. -/
def null_oid : MappingTables where
  oid_suffix_mapping := [⟨1, 4⟩]
  oid_suffix_mapping_value := [⟨4, none, none⟩]
  oid_suffix_mapping_key := by decide
  oid_suffix_mapping_value_key := by decide

theorem null_oid_not_loaded :
    ¬∃ db, load_mapping_sequences (some null_oid.sequence_rows) null_oid.value_answer .empty =
      .ok db ∧ null_oid.ChainsStored db := by
  rintro ⟨db, hload, _⟩
  have hundefined : load_mapping_sequences (some null_oid.sequence_rows) null_oid.value_answer
      .empty = .error .undefined := rfl
  rw [hundefined] at hload
  cases hload

end SnappCollector.Config
