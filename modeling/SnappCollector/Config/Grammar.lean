import SnappCollector.Config.Xml

/-!
# The grammar of the configuration file

`config.rnc` as types: a `SnappConfigContent` is what the grammar accepts, with its values, and
`file` is the tree that the parser hands over for it.  Between the elements there may be white
space, comments and processing instructions, and attributes come in any order.
-/

namespace SnappCollector.Config

open CLib Data

/-! ## Values -/

def xml_space (c : Char) : Bool := c.toNat = 32 || c.toNat = 9 || c.toNat = 10 || c.toNat = 13

/-- What matches a literal of the grammar, which is a token: space around it does not count. -/
structure Token (literal : CStr) where
  leading : CStr
  trailing : CStr
  leading_space : ∀ c ∈ leading, xml_space c = true
  trailing_space : ∀ c ∈ trailing, xml_space c = true

def Token.text {literal : CStr} (token : Token literal) : CStr :=
  token.leading ++ literal ++ token.trailing

inductive Sign where
  | none
  | plus
  | minus
deriving DecidableEq

def Sign.text : Sign → CStr
  | .none => []
  | .plus => ['+']
  | .minus => ['-']

structure XsdInteger where
  leading : CStr
  sign : Sign
  digits : CStr
  trailing : CStr
  leading_space : ∀ c ∈ leading, xml_space c = true
  digits_ne_nil : digits ≠ []
  digits_decimal : ∀ c ∈ digits, c.isDigit = true
  trailing_space : ∀ c ∈ trailing, xml_space c = true

namespace XsdInteger

def text (i : XsdInteger) : CStr := i.leading ++ i.sign.text ++ i.digits ++ i.trailing

def value (i : XsdInteger) : Int :=
  let magnitude : Int := (Nat.ofDigitChars 10 i.digits 0 : Nat)
  if i.sign = .minus then -magnitude else magnitude

def InIntRange (i : XsdInteger) : Prop := -2 ^ 31 ≤ i.value ∧ i.value < 2 ^ 31

instance (i : XsdInteger) : Decidable i.InIntRange :=
  inferInstanceAs (Decidable (_ ∧ _))

end XsdInteger

/-! ## Elements -/

inductive Misc where
  | text (content : CStr) (space : ∀ c ∈ content, xml_space c = true)
  | cdata_section (content : CStr) (space : ∀ c ∈ content, xml_space c = true)
  | comment (content : CStr)
  | processing_instruction (target : CStr) (content : Option CStr)

/-- The parser names a processing instruction by its target, and gives a CDATA section no
name. -/
def Misc.node : Misc → XmlNode
  | .text content _ => ⟨"text".toList, [], some content⟩
  | .cdata_section content _ => ⟨[], [], some content⟩
  | .comment content => ⟨"comment".toList, [], some content⟩
  | .processing_instruction target content => ⟨target, [], content⟩

def optional (name : CStr) (value : Option CStr) : List (CStr × CStr) :=
  (value.map fun text => (name, text)).toList

structure MysqlContent where
  type : Token "mysql".toList
  username : CStr
  password : CStr
  host : Option CStr
  port : Option XsdInteger
  name : Option CStr

def MysqlContent.attributes (db : MysqlContent) : List (CStr × CStr) :=
  [("type".toList, db.type.text), ("username".toList, db.username),
      ("password".toList, db.password)] ++
    optional "host".toList db.host ++ optional "port".toList (db.port.map XsdInteger.text) ++
    optional "name".toList db.name

structure SqliteContent where
  type : Token "sqlite".toList
  name : CStr

def SqliteContent.attributes (db : SqliteContent) : List (CStr × CStr) :=
  [("type".toList, db.type.text), ("name".toList, db.name)]

inductive DbContent where
  | mysql (db : MysqlContent)
  | sqlite (db : SqliteContent)

def DbContent.attributes : DbContent → List (CStr × CStr)
  | .mysql db => db.attributes
  | .sqlite db => db.attributes

structure DbElement where
  content : DbContent
  attributes : List (CStr × CStr)
  any_order : attributes.Perm content.attributes
  /-- the white space in the element -/
  inner : CStr

def DbElement.node (db : DbElement) : XmlNode := ⟨"db".toList, db.attributes, some db.inner⟩

structure ControlElement where
  port : XsdInteger
  enable_password : CStr
  attributes : List (CStr × CStr)
  any_order :
    attributes.Perm [("port".toList, port.text), ("enable_password".toList, enable_password)]
  /-- the white space in the element -/
  inner : CStr

def ControlElement.node (control : ControlElement) : XmlNode :=
  ⟨"control".toList, control.attributes, some control.inner⟩

structure SnappConfigContent where
  name : CStr
  db : DbElement
  control : ControlElement
  before_name : List Misc
  before_db : List Misc
  before_control : List Misc
  behind_control : List Misc

namespace SnappConfigContent

def name_node (doc : SnappConfigContent) : XmlNode := ⟨"name".toList, [], some doc.name⟩

def children (doc : SnappConfigContent) : List XmlNode :=
  doc.before_name.map Misc.node ++ doc.name_node ::
    (doc.before_db.map Misc.node ++ doc.db.node ::
      (doc.before_control.map Misc.node ++ doc.control.node ::
        doc.behind_control.map Misc.node))

def file (doc : SnappConfigContent) : XmlFile := .root doc.children

/-- All that stands behind the name, but for the elements. -/
def behind_name (doc : SnappConfigContent) : List Misc :=
  doc.before_db ++ doc.before_control ++ doc.behind_control

end SnappConfigContent

/-! ## What a document says -/

def DbContent.Describes : DbContent → Db_config → Prop
  | .mysql db, config =>
      config.driver = "mysql".toList ∧ config.username = db.username ∧
        config.password = db.password ∧ config.host = db.host.getD "localhost".toList ∧
        config.port = (db.port.map XsdInteger.text).getD "3306".toList ∧
        config.dbname = db.name.getD "snapp".toList
  | .sqlite db, config => config.driver = "sqlite3".toList ∧ config.dbname = db.name

structure SnappConfigContent.Describes (doc : SnappConfigContent) (config : XML_config) :
    Prop where
  collector_name : config.collector_name = doc.name
  port : config.control.port.toInt = doc.control.port.value
  enable_password : config.control.enable_password = doc.control.enable_password
  db : doc.db.content.Describes config.db_config

end SnappCollector.Config
