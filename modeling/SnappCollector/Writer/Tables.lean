import SnappCollector.Data.IndexMap
import SnappCollector.Writer.Datum

/-!
# The writer's tables

The part of `RRD_Writer` that `push_data` fills under `RRD_Writer::lock`: the
vectors of files and templates with their id maps, and the datum built from one
call.  Ids are `uint32_t`, so a position is stored modulo `2 ^ 32`.
-/

namespace SnappCollector.Writer

open CLib Data

structure RRD_File_info where
  filename : CStr
  last_flushed : Int
  last_update : Int
deriving DecidableEq

structure RRD_Writer where
  filename_id_map : AList fun _ : CStr => UInt32
  template_id_map : AList fun _ : CStr => UInt32
  rrd_template : List CStr
  file_info : List RRD_File_info

def RRD_Writer.empty : RRD_Writer := ⟨∅, ∅, [], []⟩

/-- The arguments of one `push_data` call, what the stack holds behind the 1023
characters of `local_values` that `strncpy` fills, and what it holds where
`string_to_long_doubles` has its `token`. -/
structure PushCall where
  in_time : CFloat
  filename : CStr
  in_rrd_template : CStr
  values : CStr
  stack : CStr
  token : CharPtr
deriving DecidableEq

def PushCall.local_values (call : PushCall) : CStr :=
  strncpy call.stack call.values (CONST_STRING_SIZE - 1)

/-- The text whose tokens are converted. -/
def PushCall.converted (call : PushCall) : Option CStr :=
  strtok_start call.token call.local_values

/-! ## Routing -/

/-- The enumerator of `fnv_type` that `push_data` passes as the initial hash value. -/
def FNV1_32 : UInt32 := 2

def fnv_32_str (str : CStr) (hval : UInt32) : UInt32 :=
  str.foldl (fun hval s =>
    (hval + ((hval <<< 1) + (hval <<< 4) + (hval <<< 7) + (hval <<< 8) + (hval <<< 24)))
      ^^^ UInt32.ofNat (s.toNat % 256)) hval

/-- `queue_index` of a filename among `n` queues. -/
def queue_index (n : Nat) [NeZero n] (filename : CStr) : Fin n :=
  Fin.ofNat n (fnv_32_str filename FNV1_32).toNat

/-! ## Interning -/

def RRD_Writer.filename_transform (w : RRD_Writer) (filename : CStr) : RRD_Writer × UInt32 :=
  let w' :=
    match w.filename_id_map.lookup filename with
    | none =>
        { w with
          filename_id_map :=
            w.filename_id_map.insert filename (UInt32.ofNat w.file_info.length)
          file_info := w.file_info ++ [⟨filename, 0, 0⟩] }
    | some _ => w
  (w', (w'.filename_id_map.lookup filename).getD 0)

def RRD_Writer.rrd_template_transform (w : RRD_Writer) (in_rrd_template : CStr) :
    RRD_Writer × UInt32 :=
  let w' :=
    match w.template_id_map.lookup in_rrd_template with
    | none =>
        { w with
          template_id_map :=
            w.template_id_map.insert in_rrd_template (UInt32.ofNat w.rrd_template.length)
          rrd_template := w.rrd_template ++ [in_rrd_template] }
    | some _ => w
  (w', (w'.template_id_map.lookup in_rrd_template).getD 0)

/-- `push_data` up to the assertion on `num_ds`: the tables and `new_datum`, if the
conversion comes to an end. -/
def RRD_Writer.new_datum (libc : Libc) (w : RRD_Writer) (call : PushCall) :
    RRD_Writer × Option RRD_datum :=
  let (w₁, filename_id) := w.filename_transform call.filename
  let (w₂, template_id) := w₁.rrd_template_transform call.in_rrd_template
  (w₂, (string_to_long_doubles libc call.token call.local_values).map fun (num_ds, ds) =>
    { time := call.in_time, filename_id, template_id, num_ds := UInt32.ofInt num_ds, ds })

/-! ## What the tables hold -/

def RRD_Writer.filenames (w : RRD_Writer) : List CStr := w.file_info.map (·.filename)

/-- The id maps send every name to its position modulo `2 ^ 32`. -/
structure RRD_Writer.WellFormed (w : RRD_Writer) : Prop where
  files : Indexes UInt32.ofNat w.filename_id_map w.filenames
  templates : Indexes UInt32.ofNat w.template_id_map w.rrd_template

theorem RRD_Writer.wellFormed_empty : RRD_Writer.empty.WellFormed where
  files := Indexes.empty _
  templates := Indexes.empty _

structure RRD_Writer.Names (w : RRD_Writer) (datum : RRD_datum) (call : PushCall) : Prop where
  file : call.filename ∈ w.filenames
  filename_id : datum.filename_id = UInt32.ofNat (w.filenames.idxOf call.filename)
  template : call.in_rrd_template ∈ w.rrd_template
  template_id : datum.template_id = UInt32.ofNat (w.rrd_template.idxOf call.in_rrd_template)

structure RRD_Writer.Extends (w w' : RRD_Writer) : Prop where
  files : w.file_info <+: w'.file_info
  templates : w.rrd_template <+: w'.rrd_template

variable {w w' w'' : RRD_Writer} {filename tmpl : CStr} {datum : RRD_datum}
  {call : PushCall}

theorem RRD_Writer.Extends.refl (w : RRD_Writer) : w.Extends w :=
  ⟨List.prefix_refl _, List.prefix_refl _⟩

theorem RRD_Writer.Extends.trans (h : w.Extends w') (h' : w'.Extends w'') : w.Extends w'' :=
  ⟨h.files.trans h'.files, h.templates.trans h'.templates⟩

theorem RRD_Writer.Names.extend (h : w.Names datum call) (hext : w.Extends w') :
    w'.Names datum call := by
  obtain ⟨files, hfiles⟩ := hext.files
  obtain ⟨templates, htemplates⟩ := hext.templates
  have hnames : w'.filenames = w.filenames ++ files.map (·.filename) := by
    rw [RRD_Writer.filenames, ← hfiles, List.map_append, RRD_Writer.filenames]
  refine ⟨?_, ?_, ?_, ?_⟩
  · rw [hnames]
    exact List.mem_append_left _ h.file
  · rw [hnames, List.idxOf_append_of_mem h.file]
    exact h.filename_id
  · rw [← htemplates]
    exact List.mem_append_left _ h.template
  · rw [← htemplates, List.idxOf_append_of_mem h.template]
    exact h.template_id

/-- Interning a filename: the tables stay well formed, only the files grow, and
the id is that of the name's position. -/
theorem RRD_Writer.filename_transform_spec (hw : w.WellFormed) (filename : CStr) :
    (w.filename_transform filename).1.WellFormed ∧
      w.Extends (w.filename_transform filename).1 ∧
      (w.filename_transform filename).1.rrd_template = w.rrd_template ∧
      filename ∈ (w.filename_transform filename).1.filenames ∧
      (w.filename_transform filename).2 =
        UInt32.ofNat ((w.filename_transform filename).1.filenames.idxOf filename) := by
  rw [RRD_Writer.filename_transform]
  cases hlookup : w.filename_id_map.lookup filename with
  | none =>
      have hnew : filename ∉ w.filenames := hw.files.lookup_eq_none_iff.mp hlookup
      have hins := hw.files.insert hnew
      have hlen : w.filenames.length = w.file_info.length := by simp [RRD_Writer.filenames]
      have hnames : RRD_Writer.filenames
          { w with
            filename_id_map :=
              w.filename_id_map.insert filename (UInt32.ofNat w.file_info.length)
            file_info := w.file_info ++ [⟨filename, 0, 0⟩] } = w.filenames ++ [filename] := by
        simp [RRD_Writer.filenames]
      rw [hlen] at hins
      refine ⟨⟨?_, hw.templates⟩, ⟨List.prefix_append _ _, List.prefix_refl _⟩, rfl, ?_, ?_⟩
      · rw [hnames]
        exact hins
      · simp [hnames]
      · simp [hnames, AList.lookup_insert, List.idxOf_append_of_notMem hnew, hlen]
  | some id =>
      have hmem : filename ∈ w.filenames := by
        by_contra hnot
        rw [hw.files.lookup_eq_none_iff.mpr hnot] at hlookup
        cases hlookup
      exact ⟨hw, .refl w, rfl, hmem, by simp [hw.files.lookup_of_mem hmem]⟩

theorem RRD_Writer.rrd_template_transform_spec (hw : w.WellFormed) (tmpl : CStr) :
    (w.rrd_template_transform tmpl).1.WellFormed ∧
      w.Extends (w.rrd_template_transform tmpl).1 ∧
      (w.rrd_template_transform tmpl).1.file_info = w.file_info ∧
      tmpl ∈ (w.rrd_template_transform tmpl).1.rrd_template ∧
      (w.rrd_template_transform tmpl).2 =
        UInt32.ofNat ((w.rrd_template_transform tmpl).1.rrd_template.idxOf tmpl) := by
  rw [RRD_Writer.rrd_template_transform]
  cases hlookup : w.template_id_map.lookup tmpl with
  | none =>
      have hnew : tmpl ∉ w.rrd_template := hw.templates.lookup_eq_none_iff.mp hlookup
      refine ⟨⟨hw.files, hw.templates.insert hnew⟩,
        ⟨List.prefix_refl _, List.prefix_append _ _⟩, rfl, ?_, ?_⟩
      · simp
      · simp [AList.lookup_insert, List.idxOf_append_of_notMem hnew]
  | some id =>
      have hmem : tmpl ∈ w.rrd_template := by
        by_contra hnot
        rw [hw.templates.lookup_eq_none_iff.mpr hnot] at hlookup
        cases hlookup
      exact ⟨hw, .refl w, rfl, hmem, by simp [hw.templates.lookup_of_mem hmem]⟩

/-- Building a datum: the tables stay well formed and grow, and the datum names
the file and the template of its call. -/
theorem RRD_Writer.new_datum_spec (libc : Libc) (hw : w.WellFormed) (call : PushCall) :
    (w.new_datum libc call).1.WellFormed ∧ w.Extends (w.new_datum libc call).1 ∧
      ∀ datum, (w.new_datum libc call).2 = some datum →
        (w.new_datum libc call).1.Names datum call := by
  obtain ⟨hwf₁, hext₁, -, hmem₁, hid₁⟩ := w.filename_transform_spec hw call.filename
  obtain ⟨hwf₂, hext₂, hfiles₂, hmem₂, hid₂⟩ :=
    RRD_Writer.rrd_template_transform_spec hwf₁ call.in_rrd_template
  have hnames : (w.new_datum libc call).1.filenames =
      (w.filename_transform call.filename).1.filenames := by
    simp only [RRD_Writer.new_datum, RRD_Writer.filenames]
    rw [hfiles₂]
  refine ⟨hwf₂, hext₁.trans hext₂, fun datum hdatum => ?_⟩
  obtain ⟨⟨num_ds, ds⟩, -, rfl⟩ := Option.map_eq_some_iff.mp hdatum
  refine ⟨?_, ?_, hmem₂, hid₂⟩
  · rw [hnames]
    exact hmem₁
  · rw [hnames]
    exact hid₁

/-- The file a datum leads to is its call's file exactly when that file is among
the first `2 ^ 32`. -/
theorem RRD_Writer.Names.file_info_iff (h : w.Names datum call) (hw : w.WellFormed) :
    (w.file_info[datum.filename_id.toNat]?).map (·.filename) = some call.filename ↔
      w.filenames.idxOf call.filename < 2 ^ 32 := by
  rw [h.filename_id, UInt32.toNat_ofNat', ← List.getElem?_map]
  exact getElem?_idxOf_mod_iff hw.files.nodup h.file (Nat.two_pow_pos 32)

theorem RRD_Writer.Names.rrd_template_iff (h : w.Names datum call) (hw : w.WellFormed) :
    w.rrd_template[datum.template_id.toNat]? = some call.in_rrd_template ↔
      w.rrd_template.idxOf call.in_rrd_template < 2 ^ 32 := by
  rw [h.template_id, UInt32.toNat_ofNat']
  exact getElem?_idxOf_mod_iff hw.templates.nodup h.template (Nat.two_pow_pos 32)

theorem RRD_Writer.Names.in_bounds (h : w.Names datum call) :
    datum.filename_id.toNat < w.file_info.length ∧
      datum.template_id.toNat < w.rrd_template.length := by
  have hfile : w.filenames.idxOf call.filename < w.filenames.length :=
    List.idxOf_lt_length_iff.mpr h.file
  have htemplate : w.rrd_template.idxOf call.in_rrd_template < w.rrd_template.length :=
    List.idxOf_lt_length_iff.mpr h.template
  rw [h.filename_id, h.template_id, UInt32.toNat_ofNat', UInt32.toNat_ofNat']
  rw [RRD_Writer.filenames, List.length_map] at hfile
  exact ⟨(Nat.mod_le _ _).trans_lt hfile, (Nat.mod_le _ _).trans_lt htemplate⟩

/-! ## The values of a call -/

section Values

variable (libc : Libc) (w : RRD_Writer) {call : PushCall} {str : CStr}

/-- The datum of a call with fewer than `MAX_DS_PER_FILE` tokens holds them all, converted. -/
theorem RRD_Writer.new_datum_of_lt (hstart : call.converted = some str)
    (h : (tokens ':' str).length < MAX_DS_PER_FILE) :
    ∃ datum, (w.new_datum libc call).2 = some datum ∧ datum.time = call.in_time ∧
      datum.num_ds.toNat = (tokens ':' str).length ∧
      datum.ds = (tokens ':' str).map libc.strtold := by
  simp only [RRD_Writer.new_datum, string_to_long_doubles_of_lt libc hstart h, Option.map_some]
  refine ⟨_, rfl, rfl, ?_, rfl⟩
  simp only [MAX_DS_PER_FILE] at h
  rw [UInt32.ofInt, UInt32.toNat_ofNat']
  omega

/-- From `MAX_DS_PER_FILE` tokens on it claims more than it holds. -/
theorem RRD_Writer.new_datum_of_ge (hstart : call.converted = some str)
    (h : MAX_DS_PER_FILE ≤ (tokens ':' str).length) :
    ∃ datum, (w.new_datum libc call).2 = some datum ∧ datum.num_ds.toNat = 2 ^ 32 - 1 ∧
      datum.ds.length = MAX_DS_PER_FILE := by
  have hlast : (UInt32.ofInt (-1)).toNat = 2 ^ 32 - 1 := by decide
  simp only [RRD_Writer.new_datum, string_to_long_doubles_of_ge libc hstart h, Option.map_some]
  refine ⟨_, rfl, hlast, ?_⟩
  rw [List.length_map, List.length_take]
  omega

theorem RRD_Writer.new_datum_of_wild (hstart : call.converted = none) :
    (w.new_datum libc call).2 = none := by
  simp only [RRD_Writer.new_datum, string_to_long_doubles_of_wild libc hstart, Option.map_none]

theorem PushCall.local_values_of_lt (h : call.values.length < CONST_STRING_SIZE - 1) :
    call.local_values = call.values :=
  strncpy_of_lt call.stack h

/-- Fewer than `MAX_DS_PER_FILE` short words are copied whole. -/
theorem PushCall.local_values_of_short {words : List CStr}
    (hcall : call.values = joinWith ':' words) (hmax : words.length < MAX_DS_PER_FILE)
    (hshort : ∀ word ∈ words, word.length ≤ 20) : call.local_values = call.values := by
  apply PushCall.local_values_of_lt
  have hlen := length_joinWith_le ':' hshort
  rw [hcall]
  simp only [MAX_DS_PER_FILE] at hmax
  simp only [CONST_STRING_SIZE]
  omega

end Values

end SnappCollector.Writer
