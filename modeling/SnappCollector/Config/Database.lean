import SnappCollector.Config.LoadTables
import SnappCollector.Config.Pages
import SnappCollector.Data.Relations

/-!
# The database

The tables that the loaders read, with the constraints of the schema, and what the
queries of the loaders may answer.
-/

namespace SnappCollector.Config

open CLib Collection Data

/-! ## Tables -/

structure Host where
  host_id : Int32
  ip_address : CStr
  community : CStr
deriving DecidableEq

structure CollectionClass where
  collection_class_id : Int32
  name : CStr
  collection_interval : Int32
deriving DecidableEq

structure CollectionRecord where
  collection_id : Int32
  host_id : Int32
  rrdfile : CStr
  premap_oid_suffix : CStr
  collection_class_id : Int32
  oid_suffix_mapping_id : Option Int32
deriving DecidableEq

structure CollectionInstantiation where
  collection_id : Int32
  end_epoch : Int32
deriving DecidableEq

structure OidSuffixMapping where
  oid_suffix_mapping_id : Int32
  oid_suffix_mapping_value_id : Int32
deriving DecidableEq

structure OidSuffixMappingValue where
  oid_suffix_mapping_value_id : Int32
  oid : CStr
  next_oid_suffix_mapping_value_id : Option Int32
deriving DecidableEq

/-- A state of the database in which every file name and every OID is a text and the
foreign keys hold.  That a chain of mapping values ends is nowhere required. -/
structure Snapshot where
  host : List Host
  collection_class : List CollectionClass
  collection : List CollectionRecord
  collection_instantiation : List CollectionInstantiation
  oid_suffix_mapping : List OidSuffixMapping
  oid_suffix_mapping_value : List OidSuffixMappingValue
  collection_class_collection_fk : ∀ c ∈ collection, ∃ cls ∈ collection_class,
    cls.collection_class_id = c.collection_class_id
  collection_ibfk_1 : ∀ c ∈ collection, ∃ h ∈ host, h.host_id = c.host_id
  suffix_mapping_collection_fk : ∀ c ∈ collection, ∀ id, c.oid_suffix_mapping_id = some id →
    ∃ m ∈ oid_suffix_mapping, m.oid_suffix_mapping_id = id
  collection_collection_instantiation_fk : ∀ i ∈ collection_instantiation, ∃ c ∈ collection,
    c.collection_id = i.collection_id
  oid_suffix_mapping_map_type_fk : ∀ m ∈ oid_suffix_mapping, ∃ v ∈ oid_suffix_mapping_value,
    v.oid_suffix_mapping_value_id = m.oid_suffix_mapping_value_id
  oid_suffix_mapping_value_oid_suffix_mapping_value_fk : ∀ v ∈ oid_suffix_mapping_value,
    ∀ id, v.next_oid_suffix_mapping_value_id = some id →
      ∃ v' ∈ oid_suffix_mapping_value, v'.oid_suffix_mapping_value_id = id

namespace Snapshot

variable (db : Snapshot)

/-! ## Queries -/

def collection_rows : List Row :=
  (join (fun ((c, _) : CollectionRecord × CollectionClass) (i : CollectionInstantiation) =>
      i.collection_id = c.collection_id ∧ i.end_epoch = -1)
    (join (fun (c : CollectionRecord) (cls : CollectionClass) =>
        cls.collection_class_id = c.collection_class_id) db.collection db.collection_class)
    db.collection_instantiation).map fun ((c, cls), _) =>
      { collection_class_id := c.collection_class_id
        collection_interval := cls.collection_interval
        name := cls.name
        host_id := c.host_id
        oid_suffix_mapping_id := c.oid_suffix_mapping_id
        rrdfile := c.rrdfile
        premap_oid_suffix := c.premap_oid_suffix }

/-- The rows that the query for the hosts groups. -/
def host_rows : List HostRow :=
  (join (fun (h : Host) (((c, _), _) : (CollectionRecord × Option OidSuffixMapping) × _) =>
      h.host_id = c.host_id) db.host
    (leftJoin (fun ((_, m) : CollectionRecord × Option OidSuffixMapping)
          (v : OidSuffixMappingValue) =>
        m.map OidSuffixMapping.oid_suffix_mapping_value_id = some v.oid_suffix_mapping_value_id)
      (leftJoin (fun (c : CollectionRecord) (m : OidSuffixMapping) =>
          c.oid_suffix_mapping_id = some m.oid_suffix_mapping_id)
        db.collection db.oid_suffix_mapping)
      db.oid_suffix_mapping_value)).map fun (h, (c, _), v) =>
      { host_id := h.host_id
        ip_address := h.ip_address
        community := h.community
        OID := v.map OidSuffixMappingValue.oid
        oid_suffix_mapping_id := c.oid_suffix_mapping_id }

def value_row (v : OidSuffixMappingValue) : ValueRow :=
  ⟨some v.oid, v.next_oid_suffix_mapping_value_id⟩

def sequence_rows : List SequenceRow :=
  (join (fun (m : OidSuffixMapping) (v : OidSuffixMappingValue) =>
      m.oid_suffix_mapping_value_id = v.oid_suffix_mapping_value_id)
    db.oid_suffix_mapping db.oid_suffix_mapping_value).map fun (m, v) =>
      ⟨value_row v, m.oid_suffix_mapping_id⟩

def value_answer (id : Int32) : Option (Option ValueRow) :=
  some ((db.oid_suffix_mapping_value.find? (·.oid_suffix_mapping_value_id = id)).map value_row)

end Snapshot

structure Answers where
  hosts : Option (List HostRow)
  sequences : Option (List SequenceRow)
  value : Int32 → Option (Option ValueRow)
  collections : Nat → Nat → Option (List Row)

/-- All queries succeed and read from one snapshot.  Rows come in any order that the
queries permit, and the query for the hosts may keep any row of a group. -/
structure Answers.ReadsFrom (answers : Answers) (db : Snapshot) : Prop where
  hosts : ∃ rows, answers.hosts = some rows ∧
    Grouped (fun row : HostRow => (row.host_id, row.oid_suffix_mapping_id)) db.host_rows rows
  sequences : ∃ rows, answers.sequences = some rows ∧ rows.Perm db.sequence_rows
  value : answers.value = db.value_answer
  answered : ∀ i, ∃ rows, answers.collections row_limit (i * row_limit) = some rows
  permits : Permits db.collection_rows row_limit answers.collections

end SnappCollector.Config
