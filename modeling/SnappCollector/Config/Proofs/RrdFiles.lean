import SnappCollector.Config.RrdFiles

/-!
# Where the creation of files ends the process

For a missing file: the recursion over its directories has to end, the class needs OIDs
and archives, and its definition has to fit and to fall into as many words as it was made
of.
-/

namespace SnappCollector.Config

open CLib Collection Data

variable {σ : Type}

/-! ## Directories -/

def Missing (mkdir : CStr → σ → Option Errno × σ) : Nat → CStr → σ → Prop
  | 0, _, _ => True
  | times + 1, path, s =>
      (mkdir path s).1 = some .ENOENT ∧
        Missing mkdir times (substr_before_last '/' path) (mkdir path s).2

section

variable {mkdir : CStr → σ → Option Errno × σ}

theorem recursive_dir_create_cases (stack : Nat) (path : CStr) (s : σ) :
    Missing mkdir stack path s ∧ (∃ e, recursive_dir_create mkdir stack path s = .died e) ∨
      ¬Missing mkdir stack path s ∧
        ∃ result, recursive_dir_create mkdir stack path s = .returned result := by
  induction stack generalizing path s with
  | zero => exact .inl ⟨trivial, _, rfl⟩
  | succ stack ih =>
      unfold recursive_dir_create Missing
      obtain ⟨error, s'⟩ := mkdir path s
      match error with
      | none => exact .inr ⟨nofun, _, rfl⟩
      | some .EEXIST => exact .inr ⟨nofun, _, rfl⟩
      | some .other => exact .inr ⟨nofun, _, rfl⟩
      | some .ENOENT =>
          rcases ih (substr_before_last '/' path) s' with
            ⟨hmissing, e, hdied⟩ | ⟨hanswered, result, hreturned⟩
          · refine .inl ⟨⟨rfl, hmissing⟩, e, ?_⟩
            simp only [hdied, Course.died_bind]
          · refine .inr ⟨fun h => hanswered h.2, (-1, result.2), ?_⟩
            simp only [hreturned, Course.returned_bind]
            rfl

theorem survives_recursive_dir_create (stack : Nat) (path : CStr) (s : σ) :
    (recursive_dir_create mkdir stack path s).Survives ↔ ¬Missing mkdir stack path s := by
  rcases recursive_dir_create_cases stack path s with ⟨hmissing, e, h⟩ | ⟨hanswered, result, h⟩
  · rw [h]
    exact iff_of_false (Course.not_survives_died e) (not_not.mpr hmissing)
  · rw [h]
    exact iff_of_true (Course.survives_returned result) hanswered

theorem returns_recursive_dir_create {stack : Nat} {path : CStr} {s : σ} :
    (∃ result, recursive_dir_create mkdir stack path s = .returned result) ↔
      ¬Missing mkdir stack path s := by
  rcases recursive_dir_create_cases stack path s with ⟨hmissing, e, h⟩ | ⟨hanswered, result, h⟩
  · rw [h]
    exact iff_of_false nofun (not_not.mpr hmissing)
  · exact iff_of_true ⟨result, h⟩ hanswered

end

/-! ## Definitions -/

def definition_text (cls : Loaded_class) : CStr :=
  cls.oid_rows.flatMap (ds_text cls.interval) ++ cls.rra.flatMap (rra_text cls.interval)

theorem length_in_buf_le (text : CStr) : (in_buf text).length ≤ 126 := by
  rw [in_buf, List.length_take]
  omega

theorem strncat_in_buf (rra_str text : CStr) :
    strncat rra_str (in_buf text) (CONFIG_SYS_STR_SIZE - 1) = rra_str ++ in_buf text := by
  apply strncat_of_le
  have hle := length_in_buf_le text
  show _ ≤ 1023
  omega

theorem append_loop_eq {α : Type} {body : CStr → α → Course Death CStr} (text : α → CStr)
    (allowed : α → Bool) (htext : ∀ x, ∃ t, text x = in_buf t)
    (hbody : ∀ s x, body s x = if allowed x then append_buf s (text x) else .died .fault)
    (xs : List α) {s : CStr} (hs : s.length < CONFIG_SYS_STR_SIZE) :
    xs.foldlM body s =
      if xs.all allowed ∧ (s ++ xs.flatMap text).length < CONFIG_SYS_STR_SIZE then
        .returned (s ++ xs.flatMap text)
      else .died .fault := by
  induction xs generalizing s with
  | nil => simp [hs]
  | cons x xs ih =>
      rw [List.foldlM_cons, hbody, List.all_cons, List.flatMap_cons, ← List.append_assoc]
      by_cases hx : allowed x = true
      · rw [if_pos hx, hx, Bool.true_and, append_buf]
        obtain ⟨t, ht⟩ := htext x
        rw [ht, strncat_in_buf, ← ht]
        by_cases hfits : (s ++ text x).length < CONFIG_SYS_STR_SIZE
        · simp only [hfits, if_true, Course.returned_bind]
          exact ih hfits
        · simp only [hfits, if_false, Course.died_bind]
          rw [if_neg]
          rintro ⟨-, hlt⟩
          rw [List.length_append] at hlt
          omega
      · simp [hx]

/-- The definition of the class can be put together and taken apart. -/
def Loaded_class.definable (cls : Loaded_class) : Bool :=
  cls.rra.all (fun rra => cls.interval * rra.steps ≠ 0) &&
    (definition_text cls).length < CONFIG_SYS_STR_SIZE &&
    cls.oid_rows.length + cls.rra.length ≤ (tokens ' ' (definition_text cls)).length

theorem fill_rra_str_eq (cls : Loaded_class) : fill_rra_str cls =
    if cls.rra.all (fun rra => cls.interval * rra.steps ≠ 0) ∧
        (definition_text cls).length < CONFIG_SYS_STR_SIZE then
      .returned (definition_text cls)
    else .died .fault := by
  have hds : ∀ oid, ∃ t, ds_text cls.interval oid = in_buf t := by
    intro oid
    unfold ds_text
    split <;> exact ⟨_, rfl⟩
  have hrra : ∀ rra, ∃ t, rra_text cls.interval rra = in_buf t := fun rra => ⟨_, rfl⟩
  have hempty : ([] : CStr).length < CONFIG_SYS_STR_SIZE := by decide
  have hoids : cls.oid_rows.foldlM (fun rra_str oid =>
        append_buf rra_str (ds_text cls.interval oid)) [] =
      if (cls.oid_rows.flatMap (ds_text cls.interval)).length < CONFIG_SYS_STR_SIZE then
        .returned (cls.oid_rows.flatMap (ds_text cls.interval))
      else .died .fault := by
    simpa using append_loop_eq (ds_text cls.interval) (fun _ => true) hds (fun _ _ => rfl)
      cls.oid_rows hempty
  unfold fill_rra_str definition_text
  rw [hoids]
  by_cases hfits : (cls.oid_rows.flatMap (ds_text cls.interval)).length < CONFIG_SYS_STR_SIZE
  · rw [if_pos hfits, Course.returned_bind]
    refine append_loop_eq (rra_text cls.interval) _ hrra (fun s rra => ?_) cls.rra hfits
    rw [append_rra]
    by_cases hzero : cls.interval * rra.steps = 0 <;> simp [hzero]
  · rw [if_neg hfits, Course.died_bind, if_neg]
    rintro ⟨-, hlt⟩
    rw [List.length_append] at hlt
    omega

theorem decided_tokenize (rrd_argc : Nat) (text : CStr) :
    (tokenize rrd_argc text).Decided (rrd_argc ≤ (tokens ' ' text).length) := by
  induction rrd_argc generalizing text with
  | zero => exact ⟨[], rfl⟩
  | succ rrd_argc ih =>
      unfold tokenize
      cases htoken : strtok_r ' ' text with
      | none =>
          rw [strtok_r_eq_none_iff.mp htoken]
          exact ⟨.abort, rfl⟩
      | some found =>
          obtain ⟨token, save_ptr⟩ := found
          rw [tokens_of_strtok_r htoken, List.length_cons]
          have hrest := (ih save_ptr).bind_returned (g := (token :: ·))
          simpa [asserted] using hrest

/-! ## Files -/

structure FileReady (fs : FileSystem σ) (stack : Nat) (rrd_dir : CStr) (s : σ)
    (collection : Loaded_class × SQL_Collection) : Prop where
  directories : fs.is_regular (rrd_dir ++ collection.2.rrd_filename) s = false →
    ¬Missing fs.mkdir stack (substr_before_last '/' (rrd_dir ++ collection.2.rrd_filename)) s
  definition : fs.is_regular (rrd_dir ++ collection.2.rrd_filename) s = false → ∀ made,
    recursive_dir_create fs.mkdir stack
        (substr_before_last '/' (rrd_dir ++ collection.2.rrd_filename)) s = .returned made →
      if collection.1.oid_rows = [] ∨ collection.1.rra = [] then fs.stray_argument made.2 = true
      else collection.1.definable = true ∧ fs.calloc made.2 = true

theorem survives_definition {cls : Loaded_class} {calloc : Bool} {g : List CStr → σ} :
    (do
      let rra_str ← fill_rra_str cls
      assert calloc
      let argv ← tokenize (cls.oid_rows.length + cls.rra.length) rra_str
      return g argv : Course Death σ).Survives ↔ cls.definable = true ∧ calloc = true := by
  rw [fill_rra_str_eq]
  unfold Loaded_class.definable
  split
  next hfits =>
    have htokens := (decided_tokenize (cls.oid_rows.length + cls.rra.length)
      (definition_text cls)).bind_returned (g := g)
    rw [Course.returned_bind, hfits.1, decide_eq_true hfits.2, Bool.true_and, Bool.true_and,
      Course.survives_bind, survives_assert]
    simp only [assert_eq_returned, Course.pure_eq, htokens.survives_iff]
    constructor
    · rintro ⟨hcalloc, hrest⟩
      exact ⟨hrest () hcalloc, hcalloc⟩
    · rintro ⟨hwords, hcalloc⟩
      exact ⟨hcalloc, fun _ _ => hwords⟩
  next hnot =>
    rw [Course.died_bind]
    simp only [Course.not_survives_died, false_iff, not_and, Bool.and_eq_true, decide_eq_true_eq]
    rintro ⟨hfits, -⟩
    exact absurd hfits hnot

theorem survives_create_missing_rrd_file {fs : FileSystem σ} {stack : Nat} {rrd_dir : CStr} {s : σ}
    {collection : Loaded_class × SQL_Collection} :
    (create_missing_rrd_file fs stack rrd_dir s collection).Survives ↔
      FileReady fs stack rrd_dir s collection := by
  obtain ⟨cls, c⟩ := collection
  unfold create_missing_rrd_file
  by_cases hthere : fs.is_regular (rrd_dir ++ c.rrd_filename) s = true
  · simp only [hthere, if_true, Course.pure_eq, Course.survives_returned, true_iff]
    constructor <;> intro hmissing <;> simp [hthere] at hmissing
  · have hmissing : fs.is_regular (rrd_dir ++ c.rrd_filename) s = false := by simpa using hthere
    simp only [hmissing, Bool.false_eq_true, if_false]
    rw [Course.survives_bind, survives_recursive_dir_create]
    have hbody : ∀ made : Int32 × σ,
        (if cls.oid_rows = [] ∨ cls.rra = [] then
            if fs.stray_argument made.2 = true then Course.failed else .died .fault
          else do
            let rra_str ← fill_rra_str cls
            assert (fs.calloc made.2)
            let argv ← tokenize (cls.oid_rows.length + cls.rra.length) rra_str
            return fs.rrd_create_r ⟨rrd_dir ++ c.rrd_filename, cls.interval, argv⟩ made.2 :
          Course Death σ).Survives ↔
        if cls.oid_rows = [] ∨ cls.rra = [] then fs.stray_argument made.2 = true
        else cls.definable = true ∧ fs.calloc made.2 = true := by
      intro made
      split
      · split <;> simp [*]
      · exact survives_definition
    simp only [hbody]
    constructor
    · rintro ⟨hdirs, hrest⟩
      exact ⟨fun _ => hdirs, fun _ => hrest⟩
    · rintro ⟨hdirs, hrest⟩
      exact ⟨hdirs hmissing, hrest hmissing⟩

def FilesReady (fs : FileSystem σ) (stack : Nat) (config : Loaded_config) (s : σ) : Prop :=
  ∀ before collection rest s', collections_of config.collection_class =
      before ++ collection :: rest →
    before.foldlM (create_missing_rrd_file fs stack config.rrd_dir) s = .returned s' →
    FileReady fs stack config.rrd_dir s' collection

theorem survives_create_missing_rrd_files {fs : FileSystem σ} {stack : Nat}
    {config : Loaded_config} {s : σ} :
    (create_missing_rrd_files fs stack config s).Survives ↔ FilesReady fs stack config s := by
  unfold create_missing_rrd_files
  rw [Course.survives_foldlM_iff]
  simp only [survives_create_missing_rrd_file]
  rfl

end SnappCollector.Config
