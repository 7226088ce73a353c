import Mathlib.Data.List.Nodup
import Mathlib.Data.List.Perm.Basic
import SnappCollector.Config.Grammar
import SnappCollector.Config.Proofs.Xml

/-!
# Reading what the grammar accepts

The loop over the nodes compares types with the bare literals, knows the attributes of the
mysql form only, copies 255 characters without a NUL behind them, and takes a processing
instruction for an element of its name.  A document that avoids all four is read as it says,
and no other one is.
-/

namespace SnappCollector.Config

open CLib Data

/-! ## Numerals -/

theorem isspace_of_xml_space {c : Char} (h : xml_space c = true) : isspace c = true := by
  simp only [xml_space, isspace, Bool.or_eq_true, Bool.and_eq_true, decide_eq_true_eq] at h ⊢
  omega

theorem not_isDigit_of_xml_space {c : Char} (h : xml_space c = true) : c.isDigit = false := by
  by_contra hdigit
  have hcode := code_of_isDigit (eq_true_of_ne_false hdigit)
  simp only [xml_space, Bool.or_eq_true, decide_eq_true_eq] at h
  omega

theorem toInt_atoi_text (i : XsdInteger) (h : i.InIntRange) : (atoi i.text).toInt = i.value := by
  have hleading : ∀ c ∈ i.leading, isspace c = true :=
    fun c hc => isspace_of_xml_space (i.leading_space c hc)
  have htrailing : ∀ c ∈ i.trailing, c.isDigit = false :=
    fun c hc => not_isDigit_of_xml_space (i.trailing_space c hc)
  have hlong : strtol i.text = i.value := by
    unfold XsdInteger.InIntRange at h
    unfold XsdInteger.text XsdInteger.value at *
    rw [List.append_assoc, List.append_assoc]
    cases hsign : i.sign with
    | none =>
        simp only [hsign, Sign.text, reduceCtorEq, if_false, List.nil_append] at h ⊢
        rw [strtol_digits hleading i.digits_decimal htrailing i.digits_ne_nil]
        omega
    | plus =>
        simp only [hsign, Sign.text, reduceCtorEq, if_false, List.singleton_append] at h ⊢
        rw [strtol_plus hleading i.digits_decimal htrailing]
        omega
    | minus =>
        simp only [hsign, Sign.text, if_true, List.singleton_append] at h ⊢
        rw [strtol_minus hleading i.digits_decimal htrailing]
        omega
  rw [atoi, hlong, Int32.toInt_ofInt_of_le h.1 h.2]

/-! ## Attributes in any order -/

theorem find?_key_eq_some {attributes : List (CStr × CStr)}
    (hkeys : (attributes.map (·.1)).Nodup) {name text : CStr} :
    (attributes.find? (·.1 = name)).map (·.2) = some text ↔ (name, text) ∈ attributes := by
  constructor
  · intro h
    obtain ⟨⟨key, value⟩, hfind, hvalue⟩ := Option.map_eq_some_iff.mp h
    have hmatch := List.find?_some hfind
    have hkey : key = name := of_decide_eq_true hmatch
    have hmem := List.mem_of_find?_eq_some hfind
    rwa [hkey, show value = text from hvalue] at hmem
  · intro h
    have hsome : (attributes.find? (·.1 = name)).isSome = true :=
      List.find?_isSome.mpr ⟨(name, text), h, decide_eq_true rfl⟩
    obtain ⟨pair, hfind⟩ := Option.isSome_iff_exists.mp hsome
    have hmatch := List.find?_some hfind
    have hkey : pair.1 = name := of_decide_eq_true hmatch
    have heq : pair = (name, text) :=
      List.inj_on_of_nodup_map hkeys (List.mem_of_find?_eq_some hfind) h hkey
    rw [hfind, heq]
    rfl

/-- A node is asked for its attributes by name, so that their order does not matter. -/
theorem xmlGetProp_of_perm {cur : XmlNode} {attributes : List (CStr × CStr)}
    (hperm : cur.attributes.Perm attributes) (hkeys : (attributes.map (·.1)).Nodup)
    (name : CStr) :
    cur.xmlGetProp name = (attributes.find? (·.1 = name)).map (·.2) := by
  have hkeys' : (cur.attributes.map (·.1)).Nodup := (hperm.map _).nodup_iff.mpr hkeys
  apply Option.ext
  intro text
  rw [XmlNode.xmlGetProp, find?_key_eq_some hkeys', find?_key_eq_some hkeys, hperm.mem_iff]

theorem keys_optional (name : CStr) (value : Option CStr) :
    ((optional name value).map (·.1)).Sublist [name] := by
  cases value with
  | none => exact List.nil_sublist _
  | some text => exact List.Sublist.refl _

theorem nodup_keys_mysql (db : MysqlContent) : (db.attributes.map (·.1)).Nodup := by
  have hsub : (db.attributes.map (·.1)).Sublist
      (["type".toList, "username".toList, "password".toList] ++ ["host".toList] ++
        ["port".toList] ++ ["name".toList]) := by
    simp only [MysqlContent.attributes, List.map_append]
    exact (((List.Sublist.refl _).append (keys_optional _ _)).append (keys_optional _ _)).append
      (keys_optional _ _)
  exact hsub.nodup (by decide)

theorem nodup_keys_sqlite (db : SqliteContent) : (db.attributes.map (·.1)).Nodup := by
  show ["type".toList, "name".toList].Nodup
  decide

/-! ## The text in a field -/

/-- The text and its NUL fit into what `strncpy` writes. -/
def Fits (text : CStr) : Prop := text.length < STD_STRING_SIZE - 1

instance (text : CStr) : Decidable (Fits text) :=
  inferInstanceAs (Decidable (text.length < STD_STRING_SIZE - 1))

/-- The field holds the text, whatever the memory behind it, if its NUL fits in. -/
theorem forall_copy_field_eq_iff {temp_char text : CStr} :
    (∀ beyond, copy_field beyond temp_char = text) ↔
      temp_char = text ∧ Fits text := by
  unfold copy_field Fits
  by_cases hfits : temp_char.length < STD_STRING_SIZE - 1
  · simp only [strncpy_of_lt _ hfits, forall_const]
    constructor
    · rintro rfl
      exact ⟨rfl, hfits⟩
    · exact And.left
  · constructor
    · intro h
      -- two memories that differ behind the field
      have hone := (h []).trans (h ['x']).symm
      simp [strncpy, hfits] at hone
    · rintro ⟨rfl, hlt⟩
      exact absurd hlt hfits

theorem copy_prop_eq_iff {cur : XmlNode} {name field : CStr} {value : Option CStr}
    (hvalue : cur.xmlGetProp name = value) :
    (∀ beyond, copy_prop cur name beyond field = value.getD field) ↔
      ∀ text ∈ value, Fits text := by
  unfold copy_prop
  rw [hvalue]
  cases value with
  | none => simp
  | some text =>
      show (∀ beyond, copy_field beyond text = text) ↔ _
      rw [forall_copy_field_eq_iff]
      simp

/-! ## The database -/

section Database

variable {db : DbElement}

theorem xmlGetProp_mysql {content : MysqlContent} (hdb : db.content = .mysql content) :
    db.node.xmlGetProp "type".toList = some content.type.text ∧
      db.node.xmlGetProp "username".toList = some content.username ∧
      db.node.xmlGetProp "password".toList = some content.password ∧
      db.node.xmlGetProp "host".toList = content.host ∧
      db.node.xmlGetProp "port".toList = content.port.map XsdInteger.text ∧
      db.node.xmlGetProp "name".toList = content.name := by
  have hperm : db.node.attributes.Perm content.attributes := by
    have hany := db.any_order
    rwa [hdb] at hany
  simp only [xmlGetProp_of_perm hperm (nodup_keys_mysql content)]
  obtain ⟨type, username, password, host, port, name⟩ := content
  refine ⟨rfl, rfl, rfl, ?_, ?_, ?_⟩
  · cases host with
    | none => cases port <;> cases name <;> rfl
    | some host => rfl
  · cases port with
    | none => cases host <;> cases name <;> rfl
    | some port => cases host <;> rfl
  · cases host <;> cases port <;> cases name <;> rfl

theorem xmlGetProp_type_sqlite {content : SqliteContent} (hdb : db.content = .sqlite content) :
    db.node.xmlGetProp "type".toList = some content.type.text := by
  have hperm : db.node.attributes.Perm content.attributes := by
    have hany := db.any_order
    rwa [hdb] at hany
  rw [xmlGetProp_of_perm hperm (nodup_keys_sqlite content)]
  rfl

theorem Token.mem_text {literal : CStr} (token : Token literal) {c : Char} (hc : c ∈ literal) :
    c ∈ token.text := by
  simp [Token.text, hc]

theorem mysql_text_ne_sqlite (token : Token "mysql".toList) : token.text ≠ "sqlite".toList := by
  intro h
  have hy : 'y' ∈ token.text := token.mem_text (by decide)
  rw [h] at hy
  exact absurd hy (by decide)

theorem sqlite_text_ne_mysql (token : Token "sqlite".toList) : token.text ≠ "mysql".toList := by
  intro h
  have hi : 'i' ∈ token.text := token.mem_text (by decide)
  rw [h] at hi
  exact absurd hi (by decide)

def DbContent.type_text : DbContent → CStr
  | .mysql content => content.type.text
  | .sqlite content => content.type.text

def DbElement.read (db : DbElement) (beyond memory : Db_config) : Db_config :=
  let chosen := set_db_type db.content.type_text 0 memory
  read_db_attributes beyond db.node chosen.1 chosen.2

/-- A database as the loop knows it: the type is the bare literal, and the name of an sqlite
database is the one that the code has. -/
def DbContent.Plain : DbContent → Prop
  | .mysql content =>
      content.type.text = "mysql".toList ∧ Fits content.username ∧ Fits content.password ∧
        (∀ host ∈ content.host, Fits host) ∧ (∀ port ∈ content.port, Fits port.text) ∧
        ∀ name ∈ content.name, Fits name
  | .sqlite content =>
      content.type.text = "sqlite".toList ∧ content.name = "snapp.sqlite".toList

def Db_config.blank : Db_config := ⟨[], [], [], [], [], [], []⟩

def XML_config.blank : XML_config := ⟨[], ⟨0, []⟩, .blank⟩

theorem read_mysql {content : MysqlContent} (hdb : db.content = .mysql content)
    (htype : content.type.text = "mysql".toList) (beyond memory : Db_config) :
    db.read beyond memory =
      { memory with
        driver := "mysql".toList
        port := copy_prop db.node "port".toList beyond.port "3306".toList
        host := copy_prop db.node "host".toList beyond.host "localhost".toList
        password := copy_prop db.node "password".toList beyond.password []
        username := copy_prop db.node "username".toList beyond.username []
        dbname := copy_prop db.node "name".toList beyond.dbname "snapp".toList } := by
  have htext : db.content.type_text = "mysql".toList := by rw [hdb, ← htype]; rfl
  rw [DbElement.read, htext]
  rfl

theorem read_sqlite {content : SqliteContent} (hdb : db.content = .sqlite content)
    (htype : content.type.text = "sqlite".toList) (beyond memory : Db_config) :
    db.read beyond memory =
      { memory with driver := "sqlite3".toList, dbname := "snapp.sqlite".toList } := by
  have htext : db.content.type_text = "sqlite".toList := by rw [hdb, ← htype]; rfl
  rw [DbElement.read, htext]
  rfl

theorem read_unknown (hmysql : db.content.type_text ≠ "mysql".toList)
    (hsqlite : db.content.type_text ≠ "sqlite".toList) (beyond memory : Db_config) :
    db.read beyond memory = memory := by
  rw [DbElement.read, set_db_type, if_neg hmysql, if_neg hsqlite]
  rfl

theorem describes_mysql_iff {content : MysqlContent} (hdb : db.content = .mysql content) :
    (∀ beyond memory, (DbContent.mysql content).Describes (db.read beyond memory)) ↔
      (DbContent.mysql content).Plain := by
  obtain ⟨-, husername, hpassword, hhost, hport, hname⟩ := xmlGetProp_mysql hdb
  by_cases htype : content.type.text = "mysql".toList
  · simp only [read_mysql hdb htype, DbContent.Describes, DbContent.Plain, htype, true_and]
    have husername' := @copy_prop_eq_iff db.node "username".toList [] _ husername
    have hpassword' := @copy_prop_eq_iff db.node "password".toList [] _ hpassword
    have hhost' := @copy_prop_eq_iff db.node "host".toList "localhost".toList _ hhost
    have hport' := @copy_prop_eq_iff db.node "port".toList "3306".toList _ hport
    have hname' := @copy_prop_eq_iff db.node "name".toList "snapp".toList _ hname
    constructor
    · intro h
      have husername := husername'.mp fun b => (h { Db_config.blank with username := b } .blank).1
      have hpassword :=
        hpassword'.mp fun b => (h { Db_config.blank with password := b } .blank).2.1
      have hhost := hhost'.mp fun b => (h { Db_config.blank with host := b } .blank).2.2.1
      have hport := hport'.mp fun b => (h { Db_config.blank with port := b } .blank).2.2.2.1
      have hname := hname'.mp fun b => (h { Db_config.blank with dbname := b } .blank).2.2.2.2
      exact ⟨husername _ rfl, hpassword _ rfl, hhost,
        fun port hmem => hport _ (Option.mem_map_of_mem _ hmem), hname⟩
    · rintro ⟨hfits_username, hfits_password, hfits_host, hfits_port, hfits_name⟩ beyond memory
      refine ⟨husername'.mpr ?_ _, hpassword'.mpr ?_ _, hhost'.mpr hfits_host _, hport'.mpr ?_ _,
        hname'.mpr hfits_name _⟩
      · rintro text ⟨⟩
        exact hfits_username
      · rintro text ⟨⟩
        exact hfits_password
      · intro text hmem
        obtain ⟨port, hport, rfl⟩ := Option.map_eq_some_iff.mp hmem
        exact hfits_port port hport
  · constructor
    · intro h
      have htext : db.content.type_text = content.type.text := by rw [hdb]; rfl
      have hdriver := (h .blank .blank).1
      rw [read_unknown (htext ▸ htype) (htext ▸ mysql_text_ne_sqlite content.type)] at hdriver
      cases hdriver
    · intro h
      exact absurd h.1 htype

theorem describes_sqlite_iff {content : SqliteContent} (hdb : db.content = .sqlite content) :
    (∀ beyond memory, (DbContent.sqlite content).Describes (db.read beyond memory)) ↔
      (DbContent.sqlite content).Plain := by
  by_cases htype : content.type.text = "sqlite".toList
  · simp only [read_sqlite hdb htype, DbContent.Describes, DbContent.Plain, htype, true_and]
    constructor
    · intro h
      exact (h .blank .blank).symm
    · intro h _ _
      exact h.symm
  · constructor
    · intro h
      have htext : db.content.type_text = content.type.text := by rw [hdb]; rfl
      have hdriver := (h .blank .blank).1
      rw [read_unknown (htext ▸ sqlite_text_ne_mysql content.type) (htext ▸ htype)] at hdriver
      cases hdriver
    · intro h
      exact absurd h.1 htype

theorem describes_read_iff :
    (∀ beyond memory, db.content.Describes (db.read beyond memory)) ↔ db.content.Plain := by
  cases hdb : db.content with
  | mysql content => exact describes_mysql_iff hdb
  | sqlite content => exact describes_sqlite_iff hdb

end Database

/-! ## Between the elements -/

/-- The loop takes the node for no element whose attributes it asserts. -/
def Misc.Harmless : Misc → Prop
  | .processing_instruction target content =>
      target ≠ "db".toList ∧ target ≠ "control".toList ∧
        (target = "name".toList → content.isSome = true)
  | .text _ _ | .cdata_section _ _ | .comment _ => True

def Misc.name? : Misc → Option CStr
  | .processing_instruction target content => if target = "name".toList then content else none
  | .text _ _ | .cdata_section _ _ | .comment _ => none

def last_name : List Misc → Option CStr
  | [] => none
  | misc :: rest => (last_name rest).or misc.name?

theorem last_name_append (before rest : List Misc) :
    last_name (before ++ rest) = (last_name rest).or (last_name before) := by
  induction before with
  | nil => simp [last_name]
  | cons misc before ih => simp [last_name, ih, Option.or_assoc]

theorem Misc.complete_iff (misc : Misc) : misc.node.complete = true ↔ misc.Harmless := by
  cases misc with
  | text content space | cdata_section content space => exact iff_of_true rfl trivial
  | comment content => exact iff_of_true rfl trivial
  | processing_instruction target content =>
      show XmlNode.complete ⟨target, [], content⟩ = true ↔ _ ∧ _ ∧ _
      unfold XmlNode.complete
      by_cases hname : target = "name".toList
      · subst hname
        simp
      by_cases hdb : target = "db".toList
      · rw [if_neg hname, if_pos hdb]
        exact iff_of_false nofun fun h => h.1 hdb
      by_cases hcontrol : target = "control".toList
      · rw [if_neg hname, if_neg hdb, if_pos hcontrol]
        exact iff_of_false nofun fun h => h.2.1 hcontrol
      · rw [if_neg hname, if_neg hdb, if_neg hcontrol]
        exact iff_of_true rfl ⟨hdb, hcontrol, fun h => absurd h hname⟩

section Loop

variable {beyond : XML_config} {s : XmlLoop}

theorem field_after_or (beyond field : CStr) (first next : Option CStr) :
    field_after beyond (field_after beyond field first) next =
      field_after beyond field (next.or first) := by
  cases next <;> rfl

theorem field_after_copy (beyond text : CStr) (next : Option CStr) :
    field_after beyond (copy_field beyond text) next = copy_field beyond (next.getD text) := by
  cases next <;> rfl

def XmlLoop.named (s : XmlLoop) (collector_name : CStr) : XmlLoop :=
  { s with xml_config := { s.xml_config with collector_name } }

theorem load_node_misc {misc : Misc} (h : misc.Harmless) :
    load_node beyond s misc.node =
      .returned (s.named
        (field_after beyond.collector_name s.xml_config.collector_name misc.name?)) := by
  cases misc with
  | text content space | cdata_section content space => rfl
  | comment content => rfl
  | processing_instruction target content =>
      obtain ⟨hdb, hcontrol, hcontent⟩ := h
      show load_node beyond s ⟨target, [], content⟩ = _
      by_cases hname : target = "name".toList
      · obtain ⟨text, rfl⟩ := Option.isSome_iff_exists.mp (hcontent hname)
        rw [Misc.name?, if_pos hname, load_node, if_pos hname]
        rfl
      · rw [Misc.name?, if_neg hname, load_node, if_neg hname, if_neg hdb, if_neg hcontrol]
        rfl

theorem load_misc {miscs : List Misc} (h : ∀ misc ∈ miscs, misc.Harmless) :
    (miscs.map Misc.node).foldlM (load_node beyond) s =
      .returned (s.named
        (field_after beyond.collector_name s.xml_config.collector_name (last_name miscs))) := by
  induction miscs generalizing s with
  | nil => rfl
  | cons misc miscs ih =>
      rw [List.map_cons, List.foldlM_cons, load_node_misc (h misc (List.mem_cons_self ..)),
        Course.returned_bind, ih fun m hm => h m (List.mem_cons_of_mem _ hm)]
      rw [last_name, ← field_after_or]
      rfl

theorem load_name_node (doc : SnappConfigContent) :
    load_node beyond s doc.name_node =
      .returned (s.named (copy_field beyond.collector_name doc.name)) := rfl

theorem load_db_node {db : DbElement} (hfirst : s.db_type = 0) :
    load_node beyond s db.node = .returned
      { xml_config :=
          { s.xml_config with
            db_config := db.read beyond.db_config s.xml_config.db_config }
        db_type := (set_db_type db.content.type_text 0 s.xml_config.db_config).1 } := by
  have htype : db.node.xmlGetProp "type".toList = some db.content.type_text := by
    cases hdb : db.content with
    | mysql content => exact (xmlGetProp_mysql hdb).1
    | sqlite content => exact xmlGetProp_type_sqlite hdb
  show load_db beyond s db.node = _
  rw [load_db, htype, DbElement.read, hfirst]
  rfl

theorem load_control_node {control : ControlElement} :
    load_node beyond s control.node = .returned
      { s with
        xml_config :=
          { s.xml_config with
            control :=
              { port := atoi control.port.text
                enable_password :=
                  copy_field beyond.control.enable_password control.enable_password } } } := by
  have hkeys : (["port".toList, "enable_password".toList] : List CStr).Nodup := by decide
  have hprop := @xmlGetProp_of_perm control.node _ control.any_order hkeys
  show load_control beyond s control.node = _
  rw [load_control, hprop, hprop]
  rfl

end Loop

/-! ## The document -/

namespace SnappConfigContent

def miscs (doc : SnappConfigContent) : List Misc := doc.before_name ++ doc.behind_name

def read (doc : SnappConfigContent) (beyond memory : XML_config) : XML_config where
  collector_name :=
    copy_field beyond.collector_name ((last_name doc.behind_name).getD doc.name)
  control :=
    { port := atoi doc.control.port.text
      enable_password :=
        copy_field beyond.control.enable_password doc.control.enable_password }
  db_config := doc.db.read beyond.db_config memory.db_config

variable {doc : SnappConfigContent}

theorem load_file (h : ∀ misc ∈ doc.miscs, misc.Harmless) (beyond memory : XML_config) :
    load_xml_config beyond doc.file memory = .returned (doc.read beyond memory) := by
  have hbefore_name : ∀ misc ∈ doc.before_name, misc.Harmless :=
    fun misc hmem => h misc (by simp [miscs, hmem])
  have hbefore_db : ∀ misc ∈ doc.before_db, misc.Harmless :=
    fun misc hmem => h misc (by simp [miscs, behind_name, hmem])
  have hbefore_control : ∀ misc ∈ doc.before_control, misc.Harmless :=
    fun misc hmem => h misc (by simp [miscs, behind_name, hmem])
  have hbehind_control : ∀ misc ∈ doc.behind_control, misc.Harmless :=
    fun misc hmem => h misc (by simp [miscs, behind_name, hmem])
  show (doc.children.foldlM (load_node beyond) ⟨memory, 0⟩ >>= fun s =>
    .returned s.xml_config) = _
  rw [children, List.foldlM_append, load_misc hbefore_name, Course.returned_bind,
    List.foldlM_cons, load_name_node, Course.returned_bind, List.foldlM_append,
    load_misc hbefore_db, Course.returned_bind, List.foldlM_cons, load_db_node rfl,
    Course.returned_bind, List.foldlM_append, load_misc hbefore_control, Course.returned_bind,
    List.foldlM_cons, load_control_node, Course.returned_bind, load_misc hbehind_control,
    Course.returned_bind]
  rw [read, behind_name, last_name_append, last_name_append, ← field_after_copy,
    ← field_after_or, ← field_after_or]
  rfl

/-- The document avoids what the loop takes in another way than the grammar. -/
structure Plain (doc : SnappConfigContent) : Prop where
  harmless : ∀ misc ∈ doc.miscs, misc.Harmless
  last_name : ∀ text ∈ last_name doc.behind_name, text = doc.name
  name : Fits doc.name
  enable_password : Fits doc.control.enable_password
  db : doc.db.content.Plain

/-- The file can be read, and the structure has its values, whatever the memory held. -/
def ReadAsItSays (doc : SnappConfigContent) : Prop :=
  ∀ beyond memory, ∃ config, load_xml_config beyond doc.file memory = .returned config ∧
    doc.Describes config

theorem ReadAsItSays.harmless (h : doc.ReadAsItSays) : ∀ misc ∈ doc.miscs, misc.Harmless := by
  intro misc hmem
  obtain ⟨config, hload, -⟩ := h .blank .blank
  have hcomplete : doc.children.all XmlNode.complete = true := by
    have hdecided : (load_xml_config .blank doc.file .blank).Decided
        (doc.children.all XmlNode.complete) := decided_load_xml_config
    apply hdecided.survives_iff.mp
    rw [hload]
    exact Course.survives_returned config
  have hnode : misc.node ∈ doc.children := by
    have hmap := List.mem_map_of_mem (f := Misc.node) hmem
    simp only [miscs, behind_name, List.map_append, List.mem_append] at hmap
    simp only [children, List.mem_append, List.mem_cons]
    tauto
  exact misc.complete_iff.mp (List.all_eq_true.mp hcomplete _ hnode)

theorem ReadAsItSays.plain (h : doc.ReadAsItSays) : doc.Plain := by
  have hread : ∀ beyond memory, doc.Describes (doc.read beyond memory) := by
    intro beyond memory
    obtain ⟨config, hload, hdescribes⟩ := h beyond memory
    rw [load_file h.harmless] at hload
    cases hload
    exact hdescribes
  have hname := forall_copy_field_eq_iff.mp fun b =>
    (hread { XML_config.blank with collector_name := b } .blank).collector_name
  have hpassword := forall_copy_field_eq_iff.mp fun b =>
    (hread { XML_config.blank with control := ⟨0, b⟩ } .blank).enable_password
  exact {
    harmless := h.harmless
    last_name := by
      intro text htext
      have heq := hname.1
      rwa [show SnappCollector.Config.last_name doc.behind_name = some text from htext] at heq
    name := hname.2
    enable_password := hpassword.2
    db := describes_read_iff.mp fun b memory =>
      (hread { XML_config.blank with db_config := b }
        { XML_config.blank with db_config := memory }).db }

theorem Plain.readAsItSays (h : doc.Plain) (hport : doc.control.port.InIntRange) :
    doc.ReadAsItSays := by
  intro beyond memory
  refine ⟨_, load_file h.harmless beyond memory, ?_⟩
  have hname : (SnappCollector.Config.last_name doc.behind_name).getD doc.name = doc.name := by
    cases hlast : SnappCollector.Config.last_name doc.behind_name with
    | none => rfl
    | some text => exact h.last_name text hlast
  exact {
    collector_name := forall_copy_field_eq_iff.mpr ⟨hname, h.name⟩ _
    port := toInt_atoi_text doc.control.port hport
    enable_password := forall_copy_field_eq_iff.mpr ⟨rfl, h.enable_password⟩ _
    db := describes_read_iff.mpr h.db _ _ }

/-- A document is read as it says if and only if it is plain. -/
theorem readAsItSays_iff_plain (hport : doc.control.port.InIntRange) :
    doc.ReadAsItSays ↔ doc.Plain :=
  ⟨ReadAsItSays.plain, fun h => h.readAsItSays hport⟩

end SnappConfigContent

/-! ## Two documents -/

def bareDocument (name : CStr) (content : DbContent) (enable_password : CStr) :
    SnappConfigContent where
  name
  db := ⟨content, content.attributes, .refl _, []⟩
  control :=
    { port :=
        ⟨[], .none, "9967".toList, [], nofun, by decide, List.all_eq_true.mp (by decide), nofun⟩
      enable_password
      attributes := [("port".toList, "9967".toList), ("enable_password".toList, enable_password)]
      any_order := .refl _
      inner := [] }
  before_name := []
  before_db := []
  before_control := []
  behind_control := []

def mysqlDocument : SnappConfigContent :=
  bareDocument "collector".toList
    (.mysql ⟨⟨[], [], nofun, nofun⟩, "snapp".toList, "secret".toList, some "db".toList, none,
      none⟩) "enable".toList

def sqliteDocument : SnappConfigContent :=
  bareDocument "collector".toList (.sqlite ⟨⟨[], [], nofun, nofun⟩, "collector.sqlite".toList⟩)
    "enable".toList

theorem mysqlDocument_plain : mysqlDocument.Plain where
  harmless := nofun
  last_name := nofun
  name := by decide
  enable_password := by decide
  db := ⟨rfl, by decide, by decide, by rintro host ⟨⟩; decide, nofun, nofun⟩

theorem mysqlDocument_readAsItSays : mysqlDocument.ReadAsItSays :=
  (SnappConfigContent.readAsItSays_iff_plain (by decide)).mpr mysqlDocument_plain

theorem not_readAsItSays_sqliteDocument :
    sqliteDocument.control.port.InIntRange ∧
      (∀ beyond memory, ∃ config,
        load_xml_config beyond sqliteDocument.file memory = .returned config ∧
          config.db_config.dbname = "snapp.sqlite".toList) ∧
      ¬sqliteDocument.ReadAsItSays := by
  have hload : ∀ beyond memory, ∃ config,
      load_xml_config beyond sqliteDocument.file memory = .returned config ∧
        config.db_config.dbname = "snapp.sqlite".toList := fun _ _ => ⟨_, rfl, rfl⟩
  refine ⟨by decide, hload, fun h => ?_⟩
  have hname : "collector.sqlite".toList = "snapp.sqlite".toList := h.plain.db.2
  exact absurd hname (by decide)

end SnappCollector.Config
