import SnappCollector.Config.LoadConfig
import SnappCollector.Config.Proofs.Xml

/-!
# Where loading a configuration ends the process

For each loader the condition under which it comes back, with or without a result: no
text is missing where it is copied, and the class and the host of a row can be pointed at.
-/

namespace SnappCollector.Config

open CLib Collection Data

/-! ## Failures -/

section

variable {α β σ : Type}

theorem survives_course {x : Except Failure α} :
    (Failure.course x).Survives ↔ x ≠ .error .undefined := by
  rcases x with failure | a
  · cases failure <;> simp [Failure.course]
  · simp [Failure.course]

theorem course_eq_returned {x : Except Failure α} {a : α} :
    Failure.course x = .returned a ↔ x = .ok a := by
  rcases x with failure | a
  · cases failure <;> simp [Failure.course]
  · simp [Failure.course]

theorem course_bind (x : Except Failure α) (f : α → Except Failure β) :
    Failure.course (x >>= f) = Failure.course x >>= fun a => Failure.course (f a) := by
  rcases x with failure | a
  · cases failure <;> rfl
  · rfl

theorem course_foldlM (f : σ → α → Except Failure σ) (xs : List α) (s : σ) :
    Failure.course (xs.foldlM f s) = xs.foldlM (fun s x => Failure.course (f s x)) s := by
  induction xs generalizing s with
  | nil => rfl
  | cons x xs ih =>
      rw [List.foldlM_cons, List.foldlM_cons, course_bind]
      exact congrArg _ (funext ih)

theorem course_field_text (text : Option CStr) :
    Failure.course (field_text text) = dereferenced text := by
  cases text <;> rfl

end

/-! ## Hosts and mapping sequences -/

theorem survives_load_hosts {query : Option (List HostRow)} {mapping_done : Int32}
    {host_table : Host_Info_Table} :
    (Failure.course (load_hosts query mapping_done host_table)).Survives := by
  rw [survives_course]
  cases query <;> exact nofun

def chain_readable (query2 : Int32 → Option (Option ValueRow)) : Nat → Int32 → Bool
  | 0, _ => true
  | steps + 1, next_db_id =>
      match query2 next_db_id with
      | none => true
      | some none => true
      | some (some row) =>
          row.OID.isSome && row.next_oid_suffix_mapping_value_id.all (chain_readable query2 steps)

def SequenceRow.readable (query2 : Int32 → Option (Option ValueRow)) (row : SequenceRow) : Bool :=
  row.OID.isSome &&
    row.next_oid_suffix_mapping_value_id.all (chain_readable query2 max_sequence_length)

section

variable {query2 : Int32 → Option (Option ValueRow)}

theorem decided_following_oids (steps : Nat) (next_db_id : Int32) :
    (Failure.course (following_oids query2 steps next_db_id)).Decided
      (chain_readable query2 steps next_db_id) := by
  induction steps generalizing next_db_id with
  | zero => exact .of_returned []
  | succ steps ih =>
      unfold following_oids chain_readable
      match query2 next_db_id with
      | none => exact .of_returned []
      | some none => exact .of_returned []
      | some (some row) =>
          rw [course_bind, course_field_text]
          refine (decided_dereferenced row.OID).bind fun oid => ?_
          cases row.next_oid_suffix_mapping_value_id with
          | none => exact .of_returned [oid]
          | some next_db_id =>
              show (Failure.course (following_oids query2 steps next_db_id >>= fun rest =>
                pure (oid :: rest))).Decided _
              rw [course_bind]
              exact (ih next_db_id).bind_returned

theorem decided_sequence_of_row (row : SequenceRow) :
    (Failure.course (sequence_of_row query2 row)).Decided (row.readable query2) := by
  unfold sequence_of_row SequenceRow.readable
  rw [course_bind, course_field_text]
  refine (decided_dereferenced row.OID).bind fun oid => ?_
  cases row.next_oid_suffix_mapping_value_id with
  | none => exact .of_returned _
  | some next_db_id =>
      show (Failure.course (following_oids query2 max_sequence_length next_db_id >>= fun rest =>
        pure (OID_mapping_sequence.mk row.oid_suffix_mapping_id (oid :: rest)))).Decided _
      rw [course_bind]
      exact (decided_following_oids _ next_db_id).bind_returned

theorem survives_load_mapping_sequences {query : Option (List SequenceRow)}
    {db : OID_mapping_sequence_db} :
    (Failure.course (load_mapping_sequences query query2 db)).Survives ↔
      ∀ rows, query = some rows → rows.all (SequenceRow.readable query2) = true := by
  cases query with
  | none => simp [load_mapping_sequences, Failure.course]
  | some rows =>
      have hdecided : (Failure.course (load_mapping_sequences (some rows) query2 db)).Decided
          (rows.all (SequenceRow.readable query2)) := by
        unfold load_mapping_sequences
        rw [course_foldlM]
        refine Course.Decided.foldlM (fun db row => ?_) rows db
        rw [course_bind]
        exact (decided_sequence_of_row row).bind_returned
      rw [hdecided.survives_iff]
      simp

end

/-! ## Collection classes -/

def Loading.has_class (s : Loading) : Prop :=
  ∃ found, element_at s.collection_class s.collection_class_index = .ok found

def Loading.has_host (s : Loading) : Prop :=
  ∃ i cls found, element_at s.collection_class s.collection_class_index = .ok (i, cls) ∧
    element_at cls.host s.host_index = .ok found

structure RowReadable (db : OID_mapping_sequence_db) (s : Loading) (row : StoredRow) : Prop where
  of_host : (enter_class s (row.withFile [])).last_host_id ≠ row.host_id →
    (s.host_table.get_host_for_db_id row.host_id.toUInt32).isSome = true →
    (enter_class s (row.withFile [])).has_class
  file : ∀ s', enter_host (enter_class s (row.withFile [])) (row.withFile []) = .ok s' →
    row.rrdfile ≠ none
  of_collection : ∀ s' seq,
    enter_host (enter_class s (row.withFile [])) (row.withFile []) = .ok s' →
    row_sequence db (row.withFile []) = .ok seq → s'.has_host

theorem element_at_cases {α : Type} (xs : List α) (index : Int) :
    element_at xs index = .error .undefined ∨ ∃ found, element_at xs index = .ok found := by
  unfold element_at
  split
  · exact .inl rfl
  · split
    · exact .inl rfl
    · exact .inr ⟨_, rfl⟩

section

variable {db : OID_mapping_sequence_db} {s : Loading}

theorem enter_host_ne_undefined (row : Row) : enter_host s row ≠ .error .undefined ↔
    (s.last_host_id ≠ row.host_id →
      (s.host_table.get_host_for_db_id row.host_id.toUInt32).isSome = true → s.has_class) := by
  unfold enter_host
  by_cases hsame : s.last_host_id = row.host_id
  · simp [hsame]
  rw [if_pos hsame]
  cases s.host_table.get_host_for_db_id row.host_id.toUInt32 with
  | none => simp
  | some host =>
      obtain hnone | ⟨found, hfound⟩ := element_at_cases s.collection_class s.collection_class_index
      · simp [Loading.has_class, hnone, hsame, bind, Except.bind]
      · simp [Loading.has_class, hfound, bind, Except.bind, pure, Except.pure]

theorem row_sequence_ne_undefined (row : Row) : row_sequence db row ≠ .error .undefined := by
  unfold row_sequence
  split
  · exact nofun
  · split <;> exact nofun

theorem enter_collection_ne_undefined (row : Row) : enter_collection db s row ≠ .error .undefined ↔
    ∀ seq, row_sequence db row = .ok seq → s.has_host := by
  unfold enter_collection
  cases hseq : row_sequence db row with
  | error failure =>
      have hne : row_sequence db row ≠ .error .undefined := row_sequence_ne_undefined row
      rw [hseq] at hne
      simpa [bind, Except.bind] using hne
  | ok seq =>
      obtain hnone | ⟨⟨i, cls⟩, hcls⟩ :=
        element_at_cases s.collection_class s.collection_class_index
      · simp [Loading.has_host, hnone, bind, Except.bind]
      obtain hnone | ⟨⟨j, host⟩, hhost⟩ := element_at_cases cls.host s.host_index
      · simp [Loading.has_host, hcls, hnone, bind, Except.bind]
      · simp [Loading.has_host, hcls, hhost, bind, Except.bind, pure, Except.pure]

theorem row_sequence_withFile (row : StoredRow) (rrdfile : CStr) :
    row_sequence db (row.withFile rrdfile) = row_sequence db (row.withFile []) := rfl

theorem host_table_enter_class (row : Row) : (enter_class s row).host_table = s.host_table := by
  unfold enter_class
  dsimp only
  split <;> rfl

theorem survives_load_stored_row (row : StoredRow) :
    (load_stored_row db s row).Survives ↔ RowReadable db s row := by
  unfold load_stored_row
  rw [Course.survives_bind, survives_course, enter_host_ne_undefined, host_table_enter_class]
  simp only [course_eq_returned, Course.survives_bind, survives_dereferenced,
    dereferenced_eq_returned, survives_course, enter_collection_ne_undefined,
    row_sequence_withFile]
  constructor
  · rintro ⟨hhost, hrest⟩
    refine ⟨hhost, fun s' hs' => ?_, fun s' seq hs' hseq => ?_⟩
    · exact Option.isSome_iff_ne_none.mp (hrest s' hs').1
    · obtain ⟨rrdfile, hfile⟩ := Option.isSome_iff_exists.mp (hrest s' hs').1
      exact (hrest s' hs').2 rrdfile hfile seq hseq
  · intro h
    refine ⟨h.of_host, fun s' hs' => ⟨?_, fun _ _ seq hseq => h.of_collection s' seq hs' hseq⟩⟩
    exact Option.isSome_iff_ne_none.mpr (h.file s' hs')

def RowsReadable (db : OID_mapping_sequence_db) (s : Loading) (rows : List StoredRow) : Prop :=
  ∀ before row rest s', rows = before ++ row :: rest →
    before.foldlM (load_stored_row db) s = .returned s' → RowReadable db s' row

theorem survives_load_stored_rows (rows : List StoredRow) :
    (rows.foldlM (load_stored_row db) s).Survives ↔ RowsReadable db s rows := by
  rw [Course.survives_foldlM_iff]
  simp only [survives_load_stored_row]
  rfl

end

def Loading.next_page (s : Loading) : Loading :=
  { s with collection_class_index := s.collection_class.length - 1 }

def PagesReadable (db : OID_mapping_sequence_db) (query : Nat → Nat → Option (List StoredRow))
    (row_limit : Nat) : Nat → Nat → Loading → Prop
  | 0, _, _ => True
  | fuel + 1, num_rows_done, s =>
      ∀ rows, query row_limit num_rows_done = some rows →
        RowsReadable db s.next_page rows ∧
          ∀ s', rows.foldlM (load_stored_row db) s.next_page = .returned s' →
            row_limit = rows.length →
            PagesReadable db query row_limit fuel (num_rows_done + rows.length) s'

theorem survives_load_stored_blocks {db : OID_mapping_sequence_db}
    {query : Nat → Nat → Option (List StoredRow)} {row_limit : Nat} (fuel num_rows_done : Nat)
    (s : Loading) : (load_stored_blocks db query row_limit fuel num_rows_done s).Survives ↔
      PagesReadable db query row_limit fuel num_rows_done s := by
  induction fuel generalizing num_rows_done s with
  | zero => simp [load_stored_blocks, PagesReadable]
  | succ fuel ih =>
      unfold load_stored_blocks PagesReadable
      cases hquery : query row_limit num_rows_done with
      | none => simp
      | some rows =>
          simp only [Option.some.injEq, forall_eq']
          rw [Course.survives_bind]
          refine and_congr (survives_load_stored_rows rows) (forall_congr' fun s' => ?_)
          refine imp_congr Iff.rfl ?_
          by_cases hfull : row_limit = rows.length
          · rw [if_pos hfull, ih]
            simp [hfull]
          · rw [if_neg hfull]
            simp [hfull]

/-! ## OIDs, archives and globals -/

theorem survives_load_class_oids {query : Int32 → Option (List OidRow)}
    (classes : List SQL_Collection_Class) : (load_colection_classes_oid query classes).Survives := by
  apply Course.survives_mapM
  intro cls _
  unfold load_class_oids
  split <;> exact nofun

theorem survives_load_class_rras {query : Int32 → Option (List RRA_definition)}
    (classes : List Loaded_class) : (load_colection_classes_rra query classes).Survives := by
  apply Course.survives_mapM
  intro cls _
  unfold load_class_rras
  split <;> exact nofun

def GlobalRow.readable (row : GlobalRow) : Bool := row.name.isSome && row.value.isSome

theorem decided_load_global (rrd_dir : CStr) (row : GlobalRow) :
    (load_global rrd_dir row).Decided row.readable := by
  refine (decided_dereferenced row.name).bind fun name => ?_
  have hvalue := (decided_dereferenced row.value).bind_returned
    (g := fun value => if name = "rrddir".toList then value ++ ['/'] else rrd_dir)
  convert hvalue using 3
  split <;> rfl

theorem survives_load_globals {query : Option (List GlobalRow)} :
    (load_globals query).Survives ↔
      ∀ rows, query = some rows → rows.all GlobalRow.readable = true := by
  cases query with
  | none => simp [load_globals]
  | some rows =>
      have hdecided : (load_globals (some rows)).Decided (rows.all GlobalRow.readable) :=
        Course.Decided.foldlM decided_load_global rows []
      rw [hdecided.survives_iff]
      simp

/-! ## All of it -/

def loads_tables (answers : LoadAnswers) (host_table : Host_Info_Table)
    (db : OID_mapping_sequence_db) : Prop :=
  load_hosts answers.hosts answers.mapping_done .empty = .ok host_table ∧
    load_mapping_sequences answers.sequences answers.value .empty = .ok db

def loads_classes (answers : LoadAnswers) (fuel : Nat) (host_table : Host_Info_Table)
    (db : OID_mapping_sequence_db) : Prop :=
  ∃ s classes classes',
    load_stored_blocks db answers.collections row_limit fuel 0 (Loading.start host_table) =
      .returned s ∧
    load_colection_classes_oid answers.oids s.collection_class = .returned classes ∧
    load_colection_classes_rra answers.rras classes = .returned classes'

structure RowsOfLoaders (answers : LoadAnswers) (fuel : Nat) : Prop where
  sequences : answers.hosts.isSome = true → ∀ rows, answers.sequences = some rows →
    rows.all (SequenceRow.readable answers.value) = true
  collections : ∀ host_table db, loads_tables answers host_table db →
    PagesReadable db answers.collections row_limit fuel 0 (Loading.start host_table)
  globals : ∀ host_table db, loads_tables answers host_table db →
    loads_classes answers fuel host_table db →
      ∀ rows, answers.globals = some rows → rows.all GlobalRow.readable = true

theorem load_hosts_isSome {query : Option (List HostRow)} {mapping_done : Int32}
    {host_table : Host_Info_Table} :
    (∃ table, load_hosts query mapping_done host_table = .ok table) ↔ query.isSome = true := by
  cases query <;> simp [load_hosts]

theorem survives_run_loaders {answers : LoadAnswers} {fuel : Nat} {xml_config : XML_config} :
    (run_loaders answers fuel xml_config).Survives ↔ RowsOfLoaders answers fuel := by
  unfold run_loaders
  simp only [Course.survives_bind, survives_load_hosts, survives_load_mapping_sequences,
    survives_load_stored_blocks, survives_load_class_oids, survives_load_class_rras,
    survives_load_globals, course_eq_returned, true_and, Course.pure_eq,
    Course.survives_returned, implies_true, and_true]
  constructor
  · intro h
    refine ⟨fun hhosts => ?_, fun table db htables => ?_, fun table db htables hclasses => ?_⟩
    · obtain ⟨table, htable⟩ := load_hosts_isSome.mpr hhosts
      exact (h table htable).1
    · exact ((h table htables.1).2 db htables.2).1
    · obtain ⟨s, classes, classes', hs, hoids, hrras⟩ := hclasses
      exact ((h table htables.1).2 db htables.2).2 s hs classes hoids classes' hrras
  · intro h table htable
    refine ⟨h.sequences (load_hosts_isSome.mp ⟨table, htable⟩), fun db hdb => ?_⟩
    refine ⟨h.collections table db ⟨htable, hdb⟩, fun s hs classes hoids classes' hrras => ?_⟩
    exact h.globals table db ⟨htable, hdb⟩ ⟨s, classes, classes', hs, hoids, hrras⟩

theorem survives_end_transaction {answers : LoadAnswers} {x : Course Death Loaded_config} :
    (end_transaction answers x).Survives ↔ x.Survives := by
  unfold end_transaction
  split
  · split <;> simp
  · rfl
  · simp
  · rfl

def starts (answers : LoadAnswers) (children : List XmlNode) : Prop :=
  ∃ xml_config, load_xml_config answers.beyond (.root children) answers.memory =
      .returned xml_config ∧
    connect_to_db answers xml_config.db_config = .returned () ∧
    answers.start_transaction = true

/-- The condition under which `load_config` comes back. -/
structure Loadable (answers : LoadAnswers) (fuel : Nat) (children : List XmlNode) : Prop where
  elements : children.all XmlNode.complete = true
  driver : answers.dbi_conn_new (children.foldl driver_after answers.memory.db_config.driver) = true
  rows : starts answers children → RowsOfLoaders answers fuel

theorem survives_connect_to_db {answers : LoadAnswers} {db_config : Db_config} :
    (connect_to_db answers db_config).Survives ↔ answers.dbi_conn_new db_config.driver = true := by
  unfold connect_to_db
  split
  next h =>
    simp only [h, iff_true]
    split <;> simp
  next h => simpa using h

theorem survives_load_config {answers : LoadAnswers} {fuel : Nat} :
    (load_config answers fuel).Survives ↔
      ∀ children, answers.file = .root children → Loadable answers fuel children := by
  unfold load_config
  cases hfile : answers.file with
  | unreadable => simp [load_xml_config]
  | empty => simp [load_xml_config]
  | root children =>
      simp only [XmlFile.root.injEq, forall_eq']
      rw [Course.survives_bind, decided_load_xml_config.survives_iff]
      constructor
      · rintro ⟨helements, hrest⟩
        have hreturns : (load_xml_config answers.beyond (.root children) answers.memory).Decided
            (children.all XmlNode.complete) := decided_load_xml_config
        rw [helements] at hreturns
        obtain ⟨xml_config, hxml⟩ := hreturns
        have hconnect := hrest xml_config hxml
        rw [Course.survives_bind, survives_connect_to_db, driver_load_xml_config hxml] at hconnect
        refine ⟨helements, hconnect.1, fun ⟨xml_config', hxml', hreturned, hstart⟩ => ?_⟩
        obtain rfl := Course.returned.inj (hxml.symm.trans hxml')
        have hloaders := hconnect.2 () hreturned
        rwa [if_pos hstart, survives_end_transaction, survives_run_loaders] at hloaders
      · intro h
        refine ⟨h.elements, fun xml_config hxml => ?_⟩
        rw [Course.survives_bind, survives_connect_to_db, driver_load_xml_config hxml]
        refine ⟨h.driver, fun _ hreturned => ?_⟩
        split
        next hstart =>
          rw [survives_end_transaction, survives_run_loaders]
          exact h.rows ⟨xml_config, hxml, hreturned, hstart⟩
        next => exact Course.survives_failed

end SnappCollector.Config
