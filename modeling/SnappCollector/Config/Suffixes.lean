import SnappCollector.Config.Tables
import SnappCollector.Data.Loops

/-!
# The mapping of the suffixes

`map_collection_suffixes` resolves the suffix of every collection through the
tables that were loaded from its host.  `none` means that it does not return: a
sequence is not known, which an assertion excludes, or a pointer leads nowhere.
-/

namespace SnappCollector.Config

open CLib Collection

structure Snapp_config where
  host_table : Host_Info_Table
  oid_mapping_sequence_db : OID_mapping_sequence_db
  collection_class : List SQL_Collection_Class

/-- `oid_table[oid]`: a new OID gets an empty table. -/
def oid_table_at (oid : CStr) (info : Host_Info) : OID_Value_Table × Host_Info :=
  match info.oid_table.lookup oid with
  | some table => (table, info)
  | none => (⟨[], ∅⟩, { info with oid_table := info.oid_table.insert oid ⟨[], ∅⟩ })

def map_suffix (last_val : CStr) : List CStr → StateT Host_Info Option CStr
  | [] => pure last_val
  | oid :: oids => do
      let table ← modifyGet (oid_table_at oid)
      match table.suffix_of.lookup last_val with
      | none => pure []
      | some suffix => map_suffix suffix oids

def map_collection (db : OID_mapping_sequence_db) (c : SQL_Collection) :
    StateT Host_Info Option SQL_Collection := do
  if c.oid_mapping_sequence_db_id = -1 then
    return { c with post_mapping_oid_suffix := c.premaping_oid_suffix }
  else
    let current_mapping_sequence ← StateT.lift (sequence_of db c)
    let last_val ← map_suffix c.premaping_oid_suffix current_mapping_sequence.oid
    return { c with post_mapping_oid_suffix := last_val }

def map_host (db : OID_mapping_sequence_db) (h : SQL_Host) :
    StateT (List Host_Info) Option SQL_Host := do
  let host ← get
  let current_host_info ← StateT.lift host[h.host]?
  if current_host_info.mapping_done ≠ 1 then
    return h
  else
    let (collection, info) ←
      StateT.lift ((h.collection.mapM (map_collection db)).run current_host_info)
    set (host.set h.host info)
    return { h with collection }

def map_class (db : OID_mapping_sequence_db) (cls : SQL_Collection_Class) :
    StateT (List Host_Info) Option SQL_Collection_Class := do
  let host ← cls.host.mapM (map_host db)
  return { cls with host }

def map_collection_suffixes (cfg : Snapp_config) :
    Option (List SQL_Collection_Class × List Host_Info) :=
  (cfg.collection_class.mapM (map_class cfg.oid_mapping_sequence_db)).run cfg.host_table.host

end SnappCollector.Config
