import SnappCollector.Config.LoadClasses

/-!
# Loading the hosts and the mapping sequences

`load_hosts` reads one row for every pair of a host and a mapping that its
collections use, and keeps the first of a host; `load_mapping_sequences` follows
every mapping through its chain of OIDs, with one query for each further OID.
-/

namespace SnappCollector.Config

open CLib Collection

/-- A field that is assigned to a string: NULL leads nowhere. -/
def field_text : Option CStr → Except Failure CStr
  | none => .error .undefined
  | some text => .ok text

/-! ## Hosts -/

structure HostRow where
  host_id : Int32
  ip_address : CStr
  community : CStr
  OID : Option CStr
  oid_suffix_mapping_id : Option Int32
deriving DecidableEq

def Host_Info_Table.empty : Host_Info_Table := ⟨[], ∅, by simp⟩

def Host_Info_Table.insert_new_host (table : Host_Info_Table) (inclass : Host_Info) :
    UInt32 × Host_Info_Table :=
  match table.db_id_to_index.lookup inclass.db_id with
  | none =>
      let position := UInt32.ofNat table.host.length
      (position,
        { host := table.host ++ [inclass]
          db_id_to_index := table.db_id_to_index.insert inclass.db_id position
          index_lt := by
            intro db_id i hlookup
            rw [List.length_append, List.length_singleton]
            by_cases hid : db_id = inclass.db_id
            · rw [hid, AList.lookup_insert, Option.some.injEq] at hlookup
              rw [← hlookup, UInt32.toNat_ofNat']
              exact Nat.lt_succ_of_le (Nat.mod_le _ _)
            · rw [AList.lookup_insert_ne hid] at hlookup
              exact Nat.lt_succ_of_lt (table.index_lt hlookup) })
  | some position => (position, table)

/-- The host of a row.  Nothing assigns to `mapping_done` of the local host that the
fields are copied into, which is whatever the stack holds. -/
def host_of_row (mapping_done : Int32) (row : HostRow) : Host_Info where
  db_id := row.host_id
  ip_address := row.ip_address
  community := row.community
  mapping_done
  oid_table :=
    match row.OID with
    | none => ∅
    | some oid => (∅ : AList fun _ : CStr => OID_Value_Table).insert oid ⟨oid, ∅⟩

def load_hosts (query : Option (List HostRow)) (mapping_done : Int32)
    (host_table : Host_Info_Table) : Except Failure Host_Info_Table :=
  match query with
  | none => .error .query
  | some rows => .ok (rows.foldl (fun table row =>
      (table.insert_new_host (host_of_row mapping_done row)).2) host_table)

/-! ## Mapping sequences -/

structure ValueRow where
  OID : Option CStr
  next_oid_suffix_mapping_value_id : Option Int32
deriving DecidableEq

structure SequenceRow extends ValueRow where
  oid_suffix_mapping_id : Int32
deriving DecidableEq

def OID_mapping_sequence_db.empty : OID_mapping_sequence_db := ⟨[], ∅, by simp⟩

def OID_mapping_sequence_db.insert_new_sequence (db : OID_mapping_sequence_db)
    (inclass : OID_mapping_sequence) : Nat × OID_mapping_sequence_db :=
  match db.db_id_to_index.lookup inclass.db_id with
  | none =>
      (db.mapping.length,
        { mapping := db.mapping ++ [inclass]
          db_id_to_index := db.db_id_to_index.insert inclass.db_id db.mapping.length
          index_lt := by
            intro db_id i hlookup
            rw [List.length_append, List.length_singleton]
            by_cases hid : db_id = inclass.db_id
            · rw [hid, AList.lookup_insert, Option.some.injEq] at hlookup
              exact hlookup ▸ Nat.lt_succ_self _
            · rw [AList.lookup_insert_ne hid] at hlookup
              exact Nat.lt_succ_of_lt (db.index_lt hlookup) })
  | some position => (position, db)

def max_sequence_length : Nat := 10

/-- The OIDs that follow, at most as many as the first argument says.  A query that
fails or finds nothing ends the sequence. -/
def following_oids (query2 : Int32 → Option (Option ValueRow)) :
    Nat → Int32 → Except Failure (List CStr)
  | 0, _ => .ok []
  | steps + 1, next_db_id =>
      match query2 next_db_id with
      | none => .ok []
      | some none => .ok []
      | some (some row) => do
          let oid ← field_text row.OID
          let rest ←
            match row.next_oid_suffix_mapping_value_id with
            | none => pure []
            | some next_db_id => following_oids query2 steps next_db_id
          return oid :: rest

def sequence_of_row (query2 : Int32 → Option (Option ValueRow)) (row : SequenceRow) :
    Except Failure OID_mapping_sequence := do
  let oid ← field_text row.OID
  let rest ←
    match row.next_oid_suffix_mapping_value_id with
    | none => pure []
    | some next_db_id => following_oids query2 max_sequence_length next_db_id
  return ⟨row.oid_suffix_mapping_id, oid :: rest⟩

def load_mapping_sequences (query : Option (List SequenceRow))
    (query2 : Int32 → Option (Option ValueRow)) (db : OID_mapping_sequence_db) :
    Except Failure OID_mapping_sequence_db :=
  match query with
  | none => .error .query
  | some rows => rows.foldlM (fun db row => do
      let oid_sequence ← sequence_of_row query2 row
      return (db.insert_new_sequence oid_sequence).2) db

end SnappCollector.Config
