import SnappCollector.Config.LoadTables

/-!
# The id tables

The table of the mapping sequences with both of its maps, and what the insertions of the two
tables return.  Positions are converted as the declarations say: a `size_t` becomes an `int`
when a position is stored, and an `int` becomes a `size_t` when it is used.
-/

namespace SnappCollector.Config

open CLib Collection

/-- The `int` that `insert_new_host` returns. -/
def Host_Info_Table.inserted_position (table : Host_Info_Table) (inclass : Host_Info) : Int32 :=
  (table.insert_new_host inclass).1.toInt32

namespace IdTables

structure OID_mapping_sequence extends Collection.OID_mapping_sequence where
  name : CStr

structure OID_mapping_sequence_db where
  mapping : List OID_mapping_sequence
  name_to_index : AList fun _ : CStr => Int32
  db_id_to_index : AList fun _ : Int32 => Int32

/-- The index that an `int` becomes. -/
def index_of_int (position : Int32) : Nat := position.toInt64.toUInt64.toNat

namespace OID_mapping_sequence_db

def empty : OID_mapping_sequence_db := ⟨[], ∅, ∅⟩

/-- The position of the sequence that the source returns a pointer to. -/
def get_sequence_by_db_id (db : OID_mapping_sequence_db) (db_id : UInt32) : Option Nat :=
  (db.db_id_to_index.lookup db_id.toInt32).map index_of_int

def get_sequence_by_name (db : OID_mapping_sequence_db) (name : CStr) : Option Nat :=
  (db.name_to_index.lookup name).map index_of_int

def insert_new_sequence (db : OID_mapping_sequence_db) (inclass : OID_mapping_sequence) :
    Int32 × OID_mapping_sequence_db :=
  match db.db_id_to_index.lookup inclass.db_id with
  | none =>
      let position := Int32.ofNat db.mapping.length
      (position,
        { mapping := db.mapping ++ [inclass]
          db_id_to_index := db.db_id_to_index.insert inclass.db_id position
          name_to_index := db.name_to_index.insert inclass.name position })
  | some position => (position, db)

end OID_mapping_sequence_db

end IdTables

/-! ## Sequences of calls -/

def hosts_after (calls : List Host_Info) : Host_Info_Table :=
  calls.foldl (fun table inclass => (table.insert_new_host inclass).2) .empty

def sequences_after (calls : List IdTables.OID_mapping_sequence) :
    IdTables.OID_mapping_sequence_db :=
  calls.foldl (fun db inclass => (db.insert_new_sequence inclass).2) .empty

end SnappCollector.Config
