import SnappCollector.Config.Xml

/-!
# Which configuration files can be read

An element without an attribute that the code asserts ends the process; every other file
gives a result.  The driver is the one of the last `db` element with a known type, the
password the one of the last `control` element.
-/

namespace SnappCollector.Config

open CLib Data

def XmlNode.complete (cur : XmlNode) : Bool :=
  if cur.name = "name".toList then cur.content.isSome
  else if cur.name = "db".toList then (cur.xmlGetProp "type".toList).isSome
  else if cur.name = "control".toList then
    (cur.xmlGetProp "port".toList).isSome && (cur.xmlGetProp "enable_password".toList).isSome
  else true

def driver_after (driver : CStr) (cur : XmlNode) : CStr :=
  if cur.name = "db".toList then
    if cur.xmlGetProp "type".toList = some "mysql".toList then "mysql".toList
    else if cur.xmlGetProp "type".toList = some "sqlite".toList then "sqlite3".toList
    else driver
  else driver

section

variable {beyond : XML_config} {s s' : XmlLoop} {cur : XmlNode}

theorem decided_load_name : (load_name beyond s cur).Decided cur.content.isSome :=
  (decided_asserted cur.content).bind_returned

theorem decided_load_db : (load_db beyond s cur).Decided (cur.xmlGetProp "type".toList).isSome :=
  (decided_asserted _).bind_returned

theorem decided_load_control : (load_control beyond s cur).Decided
    ((cur.xmlGetProp "port".toList).isSome && (cur.xmlGetProp "enable_password".toList).isSome) :=
  (decided_asserted _).bind fun _ => (decided_asserted _).bind_returned

theorem decided_load_node : (load_node beyond s cur).Decided cur.complete := by
  unfold load_node XmlNode.complete
  split
  · exact decided_load_name
  split
  · exact decided_load_db
  split
  · exact decided_load_control
  · exact .of_returned s

/-! ## The driver -/

theorem driver_set_db_type {temp_char : CStr} {db_type : Int32} {db_config : Db_config} :
    (set_db_type temp_char db_type db_config).2.driver =
      if temp_char = "mysql".toList then "mysql".toList
      else if temp_char = "sqlite".toList then "sqlite3".toList
      else db_config.driver := by
  unfold set_db_type
  split
  · rfl
  · split <;> rfl

theorem driver_read_db_attributes {beyond db_config : Db_config} {db_type : Int32} :
    (read_db_attributes beyond cur db_type db_config).driver = db_config.driver := by
  unfold read_db_attributes
  split <;> rfl

theorem driver_load_db (hdb : cur.name = "db".toList) (h : load_db beyond s cur = .returned s') :
    s'.xml_config.db_config.driver = driver_after s.xml_config.db_config.driver cur := by
  obtain ⟨text, htext, hs⟩ := Course.bind_eq_returned.mp h
  rw [asserted_eq_returned] at htext
  rw [Course.pure_eq, Course.returned.injEq] at hs
  unfold driver_after
  rw [if_pos hdb, htext, ← hs, driver_read_db_attributes, driver_set_db_type]
  simp only [Option.some.injEq]

theorem driver_load_node (h : load_node beyond s cur = .returned s') :
    s'.xml_config.db_config.driver = driver_after s.xml_config.db_config.driver cur := by
  unfold load_node at h
  split at h
  next hname =>
    obtain ⟨text, -, hs⟩ := Course.bind_eq_returned.mp h
    cases hs
    have hdb : cur.name ≠ "db".toList := hname ▸ by decide
    rw [driver_after, if_neg hdb]
  split at h
  next hdb => exact driver_load_db hdb h
  next hdb =>
    rw [driver_after, if_neg hdb]
    split at h
    · obtain ⟨port, -, hrest⟩ := Course.bind_eq_returned.mp h
      obtain ⟨password, -, hs⟩ := Course.bind_eq_returned.mp hrest
      cases hs
      rfl
    · cases h
      rfl

theorem driver_load_nodes {children : List XmlNode}
    (h : children.foldlM (load_node beyond) s = .returned s') :
    s'.xml_config.db_config.driver =
      children.foldl driver_after s.xml_config.db_config.driver := by
  induction children generalizing s with
  | nil =>
      cases h
      rfl
  | cons node children ih =>
      rw [List.foldlM_cons, Course.bind_eq_returned] at h
      obtain ⟨s₁, hnode, hrest⟩ := h
      rw [ih hrest, driver_load_node hnode, List.foldl_cons]

/-! ## The password -/

def password_after (password : Option CStr) (cur : XmlNode) : Option CStr :=
  if cur.name = "control".toList then cur.xmlGetProp "enable_password".toList else password

def field_after (beyond field : CStr) (temp_char : Option CStr) : CStr :=
  temp_char.elim field (copy_field beyond)

theorem password_load_node {field : CStr} {password : Option CStr}
    (hfield : s.xml_config.control.enable_password =
      field_after beyond.control.enable_password field password)
    (h : load_node beyond s cur = .returned s') :
    s'.xml_config.control.enable_password =
      field_after beyond.control.enable_password field (password_after password cur) := by
  unfold load_node at h
  split at h
  next hname =>
    obtain ⟨text, -, hs⟩ := Course.bind_eq_returned.mp h
    cases hs
    have hcontrol : cur.name ≠ "control".toList := hname ▸ by decide
    rw [password_after, if_neg hcontrol, hfield]
  split at h
  next hdb =>
    obtain ⟨text, -, hs⟩ := Course.bind_eq_returned.mp h
    cases hs
    have hcontrol : cur.name ≠ "control".toList := hdb ▸ by decide
    rw [password_after, if_neg hcontrol, hfield]
  split at h
  next hcontrol =>
    obtain ⟨port, -, hrest⟩ := Course.bind_eq_returned.mp h
    obtain ⟨text, htext, hs⟩ := Course.bind_eq_returned.mp hrest
    rw [asserted_eq_returned] at htext
    cases hs
    rw [password_after, if_pos hcontrol, htext]
    rfl
  next hcontrol =>
    cases h
    rw [password_after, if_neg hcontrol, hfield]

theorem password_load_nodes {field : CStr} {password : Option CStr} {children : List XmlNode}
    (hfield : s.xml_config.control.enable_password =
      field_after beyond.control.enable_password field password)
    (h : children.foldlM (load_node beyond) s = .returned s') :
    s'.xml_config.control.enable_password =
      field_after beyond.control.enable_password field
        (children.foldl password_after password) := by
  induction children generalizing s password with
  | nil =>
      cases h
      exact hfield
  | cons node children ih =>
      rw [List.foldlM_cons, Course.bind_eq_returned] at h
      obtain ⟨s₁, hnode, hrest⟩ := h
      rw [List.foldl_cons]
      exact ih (password_load_node hfield hnode) hrest

end

/-! ## The file -/

def configured_password (children : List XmlNode) : Option CStr :=
  children.foldl password_after none

section

variable {beyond memory xml_config : XML_config} {children : List XmlNode}

theorem decided_load_xml_config :
    (load_xml_config beyond (.root children) memory).Decided (children.all XmlNode.complete) := by
  have hnode : ∀ s cur, (load_node beyond s cur).Decided cur.complete := fun _ _ => decided_load_node
  exact (Course.Decided.foldlM hnode children _).bind_returned

theorem driver_load_xml_config
    (h : load_xml_config beyond (.root children) memory = .returned xml_config) :
    xml_config.db_config.driver = children.foldl driver_after memory.db_config.driver := by
  obtain ⟨s, hs, hconfig⟩ := Course.bind_eq_returned.mp h
  cases hconfig
  exact driver_load_nodes hs

theorem password_load_xml_config {password : CStr}
    (h : load_xml_config beyond (.root children) memory = .returned xml_config)
    (hpassword : configured_password children = some password) :
    xml_config.control.enable_password =
      copy_field beyond.control.enable_password password := by
  obtain ⟨s, hs, hconfig⟩ := Course.bind_eq_returned.mp h
  cases hconfig
  have hrun := @password_load_nodes beyond _ s memory.control.enable_password none children rfl hs
  rw [← configured_password, hpassword] at hrun
  exact hrun

end

end SnappCollector.Config
