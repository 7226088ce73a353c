import SnappCollector.Collection.Types

/-!
# The tables of a configuration

The hosts and the mapping sequences of a configuration: vectors with a map from
database ids to positions.  Every position in a map lies inside its vector.
-/

namespace SnappCollector.Config

open Collection

structure Host_Info_Table where
  host : List Host_Info
  db_id_to_index : AList fun _ : Int32 => UInt32
  index_lt : ∀ {db_id : Int32} {i : UInt32}, db_id_to_index.lookup db_id = some i →
    i.toNat < host.length

namespace Host_Info_Table

/-- The position of the host that the source returns a pointer to. -/
def get_host_for_db_id (table : Host_Info_Table) (db_id : UInt32) : Option Nat :=
  (table.db_id_to_index.lookup db_id.toInt32).map UInt32.toNat

/-- An assignment through a pointer to the host at position `i`. -/
def modify (table : Host_Info_Table) (i : Nat) (f : Host_Info → Host_Info) : Host_Info_Table where
  host := table.host.modify i f
  db_id_to_index := table.db_id_to_index
  index_lt h := by
    rw [List.length_modify]
    exact table.index_lt h

@[simp] theorem get_host_for_db_id_modify (table : Host_Info_Table) (i : Nat)
    (f : Host_Info → Host_Info) (db_id : UInt32) :
    (table.modify i f).get_host_for_db_id db_id = table.get_host_for_db_id db_id := rfl

theorem lt_of_get_host {table : Host_Info_Table} {db_id : UInt32} {i : Nat}
    (h : table.get_host_for_db_id db_id = some i) : i < table.host.length := by
  obtain ⟨index, hindex, rfl⟩ := Option.map_eq_some_iff.mp h
  exact table.index_lt hindex

end Host_Info_Table

structure OID_mapping_sequence_db where
  mapping : List OID_mapping_sequence
  db_id_to_index : AList fun _ : Int32 => Nat
  index_lt : ∀ {db_id : Int32} {i : Nat}, db_id_to_index.lookup db_id = some i →
    i < mapping.length

namespace OID_mapping_sequence_db

/-- The sequence that the source returns a pointer to; nothing assigns to it. -/
def get_sequence_by_db_id (db : OID_mapping_sequence_db) (db_id : UInt32) :
    Option OID_mapping_sequence :=
  (db.db_id_to_index.lookup db_id.toInt32).bind fun i => db.mapping[i]?

end OID_mapping_sequence_db

def sequence_of (db : OID_mapping_sequence_db) (c : SQL_Collection) :
    Option OID_mapping_sequence :=
  db.get_sequence_by_db_id c.oid_mapping_sequence_db_id.toInt32.toUInt32

end SnappCollector.Config
