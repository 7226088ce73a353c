import SnappCollector.Config.LoadTables
import SnappCollector.Config.Xml

/-!
# Loading a configuration

`load_config` reads the file, connects to the database and runs the loaders inside a
transaction.  Columns that the schema declares `NOT NULL` are texts; a text of another
column may be missing, and nothing looks before it is copied.
-/

namespace SnappCollector.Config

open CLib Collection Data

/-- A loader's result: an access that is undefined ends the process, any other failure is a
negative value. -/
def Failure.course {α : Type} : Except Failure α → Course Death α
  | .ok a => .returned a
  | .error .undefined => .died .fault
  | .error .query => .failed
  | .error .unknown_host => .failed
  | .error .unknown_mapping => .failed

/-! ## Rows -/

structure StoredRow where
  collection_class_id : Int32
  collection_interval : Int32
  name : CStr
  host_id : Int32
  oid_suffix_mapping_id : Option Int32
  rrdfile : Option CStr
  premap_oid_suffix : CStr
deriving DecidableEq

def StoredRow.withFile (row : StoredRow) (rrdfile : CStr) : Row where
  collection_class_id := row.collection_class_id
  collection_interval := row.collection_interval
  name := row.name
  host_id := row.host_id
  oid_suffix_mapping_id := row.oid_suffix_mapping_id
  rrdfile := rrdfile
  premap_oid_suffix := row.premap_oid_suffix

structure OidRow where
  ds_name : CStr
  OID_prefix : CStr
  datatype : CStr
deriving DecidableEq

structure RRA_definition where
  steps : UInt32
  cf : CStr
  numdays : UInt32
  /-- the number as `%f` prints it -/
  xff : CStr
deriving DecidableEq

structure GlobalRow where
  name : Option CStr
  value : Option CStr
deriving DecidableEq

/-- A class with what only the creation of its files uses. -/
structure Loaded_class extends SQL_Collection_Class where
  /-- `oid`, with all its fields -/
  oid_rows : List OidRow
  rra : List RRA_definition

/-- What the environment answers to `load_config`; `none` is a query that fails. -/
structure LoadAnswers where
  file : XmlFile
  /-- what the new object and the memory behind its fields hold -/
  memory : XML_config
  beyond : XML_config
  /-- whether there is a driver of this name -/
  dbi_conn_new : CStr → Bool
  /-- whether a connection with this driver and these options succeeds -/
  dbi_conn_connect : CStr → List (CStr × CStr) → Bool
  start_transaction : Bool
  hosts : Option (List HostRow)
  /-- `mapping_done` of the local host that the rows are copied through -/
  mapping_done : Int32
  sequences : Option (List SequenceRow)
  value : Int32 → Option (Option ValueRow)
  collections : Nat → Nat → Option (List StoredRow)
  oids : Int32 → Option (List OidRow)
  rras : Int32 → Option (List RRA_definition)
  globals : Option (List GlobalRow)
  commit : Bool

/-! ## The connection -/

def connection_options (db_config : Db_config) : List (CStr × CStr) :=
  [("dbname".toList, db_config.dbname)] ++
  (if db_config.driver = "mysql".toList then
    [("host".toList, db_config.host), ("port".toList, db_config.port),
      ("username".toList, db_config.username), ("password".toList, db_config.password)]
  else []) ++
  (if db_config.driver = "sqlite3".toList then
    [("sqlite3db_dir".toList, db_config.sqlite3_dbdir), ("sqlite3_timeout".toList, "100".toList)]
  else [])

def connect_to_db (answers : LoadAnswers) (db_config : Db_config) : Course Death Unit :=
  if answers.dbi_conn_new db_config.driver then
    if answers.dbi_conn_connect db_config.driver (connection_options db_config) then .returned ()
    else .failed
  else .died .exit

/-! ## The collection classes -/

/-- The body of the loop over the rows.  The file is read between the host and the mapping. -/
def load_stored_row (db : OID_mapping_sequence_db) (s : Loading) (row : StoredRow) :
    Course Death Loading := do
  let s ← Failure.course (enter_host (enter_class s (row.withFile [])) (row.withFile []))
  let rrdfile ← dereferenced row.rrdfile
  Failure.course (enter_collection db s (row.withFile rrdfile))

/-- The loop over the pages, pending when the fuel runs out; with fewer than `2 ^ 31` rows, as in
`load_blocks`. -/
def load_stored_blocks (db : OID_mapping_sequence_db)
    (query : Nat → Nat → Option (List StoredRow)) (row_limit : Nat) :
    Nat → Nat → Loading → Course Death Loading
  | 0, _, _ => .pending
  | fuel + 1, num_rows_done, s =>
      match query row_limit num_rows_done with
      | none => .failed
      | some rows => do
          let s ← rows.foldlM (load_stored_row db)
            { s with collection_class_index := s.collection_class.length - 1 }
          if row_limit = rows.length then
            load_stored_blocks db query row_limit fuel (num_rows_done + rows.length) s
          else return s

/-! ## OIDs, archives and globals -/

/-- The OIDs of a class.  The asserted columns are `NOT NULL`. -/
def load_class_oids (query : Int32 → Option (List OidRow)) (cls : SQL_Collection_Class) :
    Course Death Loaded_class :=
  match query cls.db_id.toInt32 with
  | none => .failed
  | some rows =>
      .returned { cls with
        oid := cls.oid ++ rows.map fun row => ⟨row.OID_prefix, row.ds_name⟩
        oid_rows := rows
        rra := [] }

def load_colection_classes_oid (query : Int32 → Option (List OidRow))
    (collection_class : List SQL_Collection_Class) : Course Death (List Loaded_class) :=
  collection_class.mapM (load_class_oids query)

def load_class_rras (query : Int32 → Option (List RRA_definition)) (cls : Loaded_class) :
    Course Death Loaded_class :=
  match query cls.db_id.toInt32 with
  | none => .failed
  | some rows => .returned { cls with rra := cls.rra ++ rows }

def load_colection_classes_rra (query : Int32 → Option (List RRA_definition))
    (collection_class : List Loaded_class) : Course Death (List Loaded_class) :=
  collection_class.mapM (load_class_rras query)

/-- The body of the loop over the globals: the last `rrddir` counts. -/
def load_global (rrd_dir : CStr) (row : GlobalRow) : Course Death CStr := do
  let name ← dereferenced row.name
  let value ← dereferenced row.value
  if name = "rrddir".toList then return value ++ ['/'] else return rrd_dir

def load_globals (query : Option (List GlobalRow)) : Course Death CStr :=
  match query with
  | none => .failed
  | some rows => rows.foldlM load_global []

/-! ## All of it -/

structure Loaded_config where
  xml_config : XML_config
  host_table : Host_Info_Table
  oid_mapping_sequence_db : OID_mapping_sequence_db
  collection_class : List Loaded_class
  rrd_dir : CStr

def run_loaders (answers : LoadAnswers) (fuel : Nat) (xml_config : XML_config) :
    Course Death Loaded_config := do
  let host_table ← Failure.course (load_hosts answers.hosts answers.mapping_done .empty)
  let db ← Failure.course (load_mapping_sequences answers.sequences answers.value .empty)
  let s ← load_stored_blocks db answers.collections row_limit fuel 0 (Loading.start host_table)
  let collection_class ← load_colection_classes_oid answers.oids s.collection_class
  let collection_class ← load_colection_classes_rra answers.rras collection_class
  let rrd_dir ← load_globals answers.globals
  return ⟨xml_config, s.host_table, db, collection_class, rrd_dir⟩

/-- A failure of a loader leads to `end_transaction:` too, and is the result after it. -/
def end_transaction (answers : LoadAnswers) : Course Death Loaded_config → Course Death Loaded_config
  | .returned config => if answers.commit then .returned config else .failed
  | .failed => .failed
  | .died death => .died death
  | .pending => .pending

def load_config (answers : LoadAnswers) (fuel : Nat) : Course Death Loaded_config := do
  let xml_config ← load_xml_config answers.beyond answers.file answers.memory
  connect_to_db answers xml_config.db_config
  if answers.start_transaction then
    end_transaction answers (run_loaders answers fuel xml_config)
  else .failed

end SnappCollector.Config
