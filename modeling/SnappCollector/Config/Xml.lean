import SnappCollector.CLib.Integer
import SnappCollector.CLib.Process
import SnappCollector.CLib.Text

/-!
# The configuration file

`load_xml_config` goes once over the children of the root element.  The fields of the
result lie in an object that nothing initializes: what the file does not set is what the
memory held, and a text that fills its field goes on in the memory behind it.
-/

namespace SnappCollector.Config

open CLib Data

/-! ## Records -/

structure Db_config where
  username : CStr
  password : CStr
  dbname : CStr
  sqlite3_dbdir : CStr
  host : CStr
  port : CStr
  driver : CStr
deriving DecidableEq

structure Control_config where
  port : Int32
  enable_password : CStr
deriving DecidableEq

structure XML_config where
  collector_name : CStr
  control : Control_config
  db_config : Db_config
deriving DecidableEq

def STD_STRING_SIZE : Nat := 256

def DB_TYPE_MYSQL : Int32 := 1

def DB_TYPE_SQLITE : Int32 := 2

/-! ## Documents -/

/-- A child of the root: only elements have attributes. -/
structure XmlNode where
  name : CStr
  attributes : List (CStr × CStr)
  /-- what `xmlNodeGetContent` returns -/
  content : Option CStr
deriving DecidableEq

def XmlNode.xmlGetProp (cur : XmlNode) (name : CStr) : Option CStr :=
  (cur.attributes.find? (·.1 = name)).map (·.2)

inductive XmlFile where
  | unreadable
  /-- a document without a root element -/
  | empty
  | root (children : List XmlNode)

/-! ## The loop over the nodes -/

structure XmlLoop where
  xml_config : XML_config
  db_type : Int32
deriving DecidableEq

/-- `strncpy` into a field of `STD_STRING_SIZE` characters; `beyond` is the memory from its
last character on. -/
def copy_field (beyond temp_char : CStr) : CStr :=
  strncpy beyond temp_char (STD_STRING_SIZE - 1)

def copy_prop (cur : XmlNode) (name beyond field : CStr) : CStr :=
  match cur.xmlGetProp name with
  | none => field
  | some temp_char => copy_field beyond temp_char

/-- The driver and the defaults of a type, with `db_type`. -/
def set_db_type (temp_char : CStr) (db_type : Int32) (db_config : Db_config) :
    Int32 × Db_config :=
  if temp_char = "mysql".toList then
    (DB_TYPE_MYSQL,
      { db_config with
        driver := "mysql".toList
        port := "3306".toList
        host := "localhost".toList
        username := []
        password := []
        dbname := "snapp".toList })
  else if temp_char = "sqlite".toList then
    (DB_TYPE_SQLITE,
      { db_config with driver := "sqlite3".toList, dbname := "snapp.sqlite".toList })
  else (db_type, db_config)

def read_db_attributes (beyond : Db_config) (cur : XmlNode) (db_type : Int32)
    (db_config : Db_config) : Db_config :=
  if db_type = DB_TYPE_MYSQL then
    { db_config with
      port := copy_prop cur "port".toList beyond.port db_config.port
      host := copy_prop cur "host".toList beyond.host db_config.host
      password := copy_prop cur "password".toList beyond.password db_config.password
      username := copy_prop cur "username".toList beyond.username db_config.username
      dbname := copy_prop cur "name".toList beyond.dbname db_config.dbname }
  else db_config

def load_name (beyond : XML_config) (s : XmlLoop) (cur : XmlNode) : Course Death XmlLoop := do
  let temp_char ← asserted cur.content
  let collector_name := copy_field beyond.collector_name temp_char
  return { s with xml_config := { s.xml_config with collector_name } }

def load_db (beyond : XML_config) (s : XmlLoop) (cur : XmlNode) : Course Death XmlLoop := do
  let temp_char ← asserted (cur.xmlGetProp "type".toList)
  -- another type than these two leaves the one of an earlier element
  let chosen := set_db_type temp_char s.db_type s.xml_config.db_config
  let db_config := read_db_attributes beyond.db_config cur chosen.1 chosen.2
  return { s with xml_config := { s.xml_config with db_config }, db_type := chosen.1 }

def load_control (beyond : XML_config) (s : XmlLoop) (cur : XmlNode) : Course Death XmlLoop := do
  let port ← asserted (cur.xmlGetProp "port".toList)
  let temp_char ← asserted (cur.xmlGetProp "enable_password".toList)
  let enable_password := copy_field beyond.control.enable_password temp_char
  return { s with
    xml_config := { s.xml_config with control := { port := atoi port, enable_password } } }

def load_node (beyond : XML_config) (s : XmlLoop) (cur : XmlNode) : Course Death XmlLoop :=
  if cur.name = "name".toList then load_name beyond s cur
  else if cur.name = "db".toList then load_db beyond s cur
  else if cur.name = "control".toList then load_control beyond s cur
  else return s

/-- `xml_config` is what the memory holds before the call. -/
def load_xml_config (beyond : XML_config) (file : XmlFile) (xml_config : XML_config) :
    Course Death XML_config :=
  match file with
  | .unreadable => .failed
  | .empty => .failed
  | .root children => do
      let s ← children.foldlM (load_node beyond) ⟨xml_config, 0⟩
      return s.xml_config

end SnappCollector.Config
