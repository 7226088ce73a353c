import SnappCollector.Config.Tables

/-!
# Loading the collection classes

`load_collection_class_block` reads one page of the joined collection rows and
appends what it finds to the classes; `load_collection_classes` reads page after
page until a short one.  The database is a function from a limit and an offset to
the rows of that page.
-/

namespace SnappCollector.Config

open CLib Collection

structure Row where
  collection_class_id : Int32
  collection_interval : Int32
  name : CStr
  host_id : Int32
  /-- `none` for NULL -/
  oid_suffix_mapping_id : Option Int32
  rrdfile : CStr
  premap_oid_suffix : CStr
deriving DecidableEq

inductive Failure where
  | query
  | unknown_host
  | unknown_mapping
  /-- an index of -1 was used -/
  | undefined
deriving DecidableEq

/-- What the rows are loaded into, and the variables that point at the last entry.
The database ids are `int`s, so that the positions, which count different ids, are
never too large for one. -/
structure Loading where
  collection_class : List SQL_Collection_Class
  host_table : Host_Info_Table
  last_db_id : Int32
  last_host_id : Int32
  host_index : Int
  collection_class_index : Int

def element_at {α : Type} (xs : List α) (index : Int) : Except Failure (Nat × α) :=
  if index < 0 then .error .undefined
  else
    match xs[index.toNat]? with
    | none => .error .undefined
    | some x => .ok (index.toNat, x)

/-- A row with an id other than the last one starts a class. -/
def enter_class (s : Loading) (row : Row) : Loading :=
  let db_id := row.collection_class_id.toUInt32
  -- an int becomes unsigned next to a uint32_t
  if s.last_db_id.toUInt32 ≠ db_id then
    { s with
      collection_class := s.collection_class ++
        [⟨db_id, row.collection_interval.toUInt32, row.name, [], [], []⟩]
      last_db_id := db_id.toInt32
      collection_class_index := s.collection_class.length
      last_host_id := -1
      host_index := -1 }
  else s

def enter_host (s : Loading) (row : Row) : Except Failure Loading :=
  if s.last_host_id ≠ row.host_id then
    match s.host_table.get_host_for_db_id row.host_id.toUInt32 with
    | none => .error .unknown_host
    | some host => do
        let (i, cls) ← element_at s.collection_class s.collection_class_index
        return { s with
          collection_class := s.collection_class.set i { cls with host := cls.host ++ [⟨host, []⟩] }
          host_index := cls.host.length
          last_host_id := row.host_id }
  else .ok s

/-- The collection of a row, before its suffix is mapped. -/
def collection_of (row : Row) : SQL_Collection :=
  ⟨row.premap_oid_suffix, [], row.oid_suffix_mapping_id.elim (-1) Int32.toInt64, row.rrdfile⟩

def row_sequence (db : OID_mapping_sequence_db) (row : Row) :
    Except Failure (Option OID_mapping_sequence) :=
  match row.oid_suffix_mapping_id with
  | none => .ok none
  | some _ =>
      match sequence_of db (collection_of row) with
      | none => .error .unknown_mapping
      | some seq => .ok (some seq)

/-- An empty table for every OID of a sequence. -/
def insert_oid_tables (seq : Option OID_mapping_sequence) (info : Host_Info) : Host_Info :=
  (seq.elim [] (·.oid)).foldl
    (fun info oid => { info with oid_table := info.oid_table.insert oid ⟨oid, ∅⟩ }) info

def enter_collection (db : OID_mapping_sequence_db) (s : Loading) (row : Row) :
    Except Failure Loading := do
  let seq ← row_sequence db row
  let (i, cls) ← element_at s.collection_class s.collection_class_index
  let (j, host) ← element_at cls.host s.host_index
  return { s with
    collection_class := s.collection_class.set i { cls with
      host := cls.host.set j { host with collection := host.collection ++ [collection_of row] } }
    host_table := s.host_table.modify host.host (insert_oid_tables seq) }

def load_row (db : OID_mapping_sequence_db) (s : Loading) (row : Row) : Except Failure Loading := do
  let s ← enter_host (enter_class s row) row
  enter_collection db s row

def load_collection_class_block (db : OID_mapping_sequence_db)
    (query : Nat → Nat → Option (List Row)) (limit offset : Nat) (s : Loading) :
    Except Failure (Nat × Loading) :=
  match query limit offset with
  | none => .error .query
  | some rows => do
      let s := { s with collection_class_index := s.collection_class.length - 1 }
      let s ← rows.foldlM (load_row db) s
      return (rows.length, s)

/-- The loop over the pages, `none` when the fuel runs out.  `num_rows_done` is an `int` in the
source: there are fewer than `2 ^ 31` rows. -/
def load_blocks (db : OID_mapping_sequence_db) (query : Nat → Nat → Option (List Row))
    (row_limit : Nat) : Nat → Nat → Loading → Option (Except Failure Loading)
  | 0, _, _ => none
  | fuel + 1, num_rows_done, s =>
      match load_collection_class_block db query row_limit num_rows_done s with
      | .error failure => some (.error failure)
      | .ok (affected_rows, s) =>
          if row_limit = affected_rows then
            load_blocks db query row_limit fuel (num_rows_done + affected_rows) s
          else some (.ok s)

def Loading.start (host_table : Host_Info_Table) : Loading :=
  ⟨[], host_table, -1, -1, -1, -1⟩

def row_limit : Nat := 5000

def load_collection_classes (db : OID_mapping_sequence_db)
    (query : Nat → Nat → Option (List Row)) (fuel : Nat) (host_table : Host_Info_Table) :
    Option (Except Failure Loading) :=
  load_blocks db query row_limit fuel 0 (Loading.start host_table)

end SnappCollector.Config
