import SnappCollector.Config.Proofs.RrdFiles

/-!
# The definition of a file

`create_missing_rrd_files` formats each definition into a buffer of its own, appends it to
one text, and takes that text apart at the blanks.  A definition that fills its buffer loses
its blank, and with it a word of the whole; the number of rows of an archive is computed in
32 bits.
-/

namespace SnappCollector.Config

open CLib Collection Data

/-! ## The formatted definitions -/

/-- A data source as it is formatted, before it is cut off. -/
def ds_definition (interval : UInt32) (oid : OidRow) : CStr :=
  if strstr oid.datatype "COMPUTE".toList = none then
    "DS:".toList ++ oid.ds_name ++ ":".toList ++ oid.datatype ++ ":".toList ++
      dec_int (interval * 2).toInt32.toInt ++ ":0:1e11".toList
  else "DS:".toList ++ oid.ds_name ++ ":".toList ++ oid.datatype

def rra_definition (interval : UInt32) (rra : RRA_definition) : CStr :=
  "RRA:".toList ++ rra.cf ++ ":".toList ++ rra.xff ++ ":".toList ++
    dec_int rra.steps.toInt32.toInt ++ ":".toList ++
    dec_int (rra_rows interval rra).toInt32.toInt

namespace Loaded_class

variable (cls : Loaded_class)

def definitions : List CStr :=
  cls.oid_rows.map (ds_definition cls.interval) ++ cls.rra.map (rra_definition cls.interval)

/-- No text of the class holds a blank; `%f` writes none. -/
structure BlankFree : Prop where
  oid : ∀ oid ∈ cls.oid_rows, ' ' ∉ oid.ds_name ∧ ' ' ∉ oid.datatype
  rra : ∀ rra ∈ cls.rra, ' ' ∉ rra.cf ∧ ' ' ∉ rra.xff

/-- The text fits `rra_str` and has as many words as there are definitions, which are what
`rrd_create_r` gets. -/
def PassedOn : Prop :=
  ∃ rra_str, fill_rra_str cls = .returned rra_str ∧ rra_str.length ≤ 1023 ∧
    (tokens ' ' rra_str).length = cls.oid_rows.length + cls.rra.length ∧
    tokenize (cls.oid_rows.length + cls.rra.length) rra_str = .returned cls.definitions

/-- No rows are computed with a divisor of 0, each definition but the last leaves room for its
blank, and all of them fit together. -/
structure Fits : Prop where
  divisor : ∀ rra ∈ cls.rra, cls.interval * rra.steps ≠ 0
  blanks : ∀ text ∈ cls.definitions.dropLast, text.length < 126
  last : ∀ text ∈ cls.definitions.getLast?, text.length ≤ 126
  whole : (cls.definitions.map fun text => min (text.length + 1) 126).sum ≤ 1023

end Loaded_class

theorem ds_text_eq (interval : UInt32) (oid : OidRow) :
    ds_text interval oid = (ds_definition interval oid ++ [' ']).take 126 := by
  unfold ds_text ds_definition
  split
  · have hblank : ":0:1e11 ".toList = ":0:1e11".toList ++ [' '] := rfl
    rw [in_buf, hblank, ← List.append_assoc]
  · rfl

theorem rra_text_eq (interval : UInt32) (rra : RRA_definition) :
    rra_text interval rra = (rra_definition interval rra ++ [' ']).take 126 := rfl

theorem definition_text_eq (cls : Loaded_class) :
    definition_text cls = cut_words ' ' 126 cls.definitions := by
  have hds : ds_text cls.interval = fun oid => (ds_definition cls.interval oid ++ [' ']).take 126 :=
    funext (ds_text_eq cls.interval)
  have hrra : rra_text cls.interval =
      fun rra => (rra_definition cls.interval rra ++ [' ']).take 126 :=
    funext (rra_text_eq cls.interval)
  rw [definition_text, hds, hrra, cut_words, Loaded_class.definitions, List.flatMap_append,
    List.flatMap_map, List.flatMap_map]

/-! ## The words -/

theorem blank_not_mem_ds_definition (interval : UInt32) {oid : OidRow} (hname : ' ' ∉ oid.ds_name)
    (htype : ' ' ∉ oid.datatype) : ' ' ∉ ds_definition interval oid := by
  have hinterval := not_mem_dec_int (c := ' ') rfl (by decide) (interval * 2).toInt32.toInt
  unfold ds_definition
  split
  · simp only [List.mem_append, not_or]
    exact ⟨⟨⟨⟨⟨⟨by decide, hname⟩, by decide⟩, htype⟩, by decide⟩, hinterval⟩, by decide⟩
  · simp only [List.mem_append, not_or]
    exact ⟨⟨⟨by decide, hname⟩, by decide⟩, htype⟩

theorem blank_not_mem_rra_definition (interval : UInt32) {rra : RRA_definition} (hcf : ' ' ∉ rra.cf)
    (hxff : ' ' ∉ rra.xff) : ' ' ∉ rra_definition interval rra := by
  have hsteps := not_mem_dec_int (c := ' ') rfl (by decide) rra.steps.toInt32.toInt
  have hrows := not_mem_dec_int (c := ' ') rfl (by decide)
    (rra_rows interval rra).toInt32.toInt
  unfold rra_definition
  simp only [List.mem_append, not_or]
  exact ⟨⟨⟨⟨⟨⟨⟨by decide, hcf⟩, by decide⟩, hxff⟩, by decide⟩, hsteps⟩, by decide⟩, hrows⟩

theorem Loaded_class.BlankFree.words {cls : Loaded_class} (hblank : cls.BlankFree) :
    ∀ text ∈ cls.definitions, text ≠ [] ∧ ' ' ∉ text := by
  intro text htext
  rcases List.mem_append.mp htext with hds | hrra
  · obtain ⟨oid, hoid, rfl⟩ := List.mem_map.mp hds
    obtain ⟨hname, htype⟩ := hblank.oid oid hoid
    refine ⟨?_, blank_not_mem_ds_definition _ hname htype⟩
    unfold ds_definition
    split
    · exact List.cons_ne_nil 'D' _
    · exact List.cons_ne_nil 'D' _
  · obtain ⟨rra, hmem, rfl⟩ := List.mem_map.mp hrra
    obtain ⟨hcf, hxff⟩ := hblank.rra rra hmem
    exact ⟨List.cons_ne_nil 'R' _, blank_not_mem_rra_definition _ hcf hxff⟩

theorem tokenize_eq_returned_iff {rrd_argc : Nat} {text : CStr} {argv : List CStr} :
    tokenize rrd_argc text = .returned argv ↔
      rrd_argc ≤ (tokens ' ' text).length ∧ (tokens ' ' text).take rrd_argc = argv := by
  induction rrd_argc generalizing text argv with
  | zero => simp [tokenize]
  | succ rrd_argc ih =>
      unfold tokenize
      cases htoken : strtok_r ' ' text with
      | none =>
          rw [strtok_r_eq_none_iff.mp htoken]
          exact iff_of_false nofun fun h => Nat.not_succ_le_zero _ h.1
      | some found =>
          obtain ⟨token, save_ptr⟩ := found
          rw [tokens_of_strtok_r htoken, List.length_cons, List.take_succ_cons]
          simp only [asserted, Course.returned_bind, Course.bind_eq_returned, ih]
          constructor
          · rintro ⟨rest, ⟨hle, rfl⟩, hargv⟩
            exact ⟨Nat.succ_le_succ hle, Course.returned.inj hargv⟩
          · rintro ⟨hle, rfl⟩
            exact ⟨_, ⟨Nat.le_of_succ_le_succ hle, rfl⟩, rfl⟩

theorem length_definitions (cls : Loaded_class) :
    cls.definitions.length = cls.oid_rows.length + cls.rra.length := by
  rw [Loaded_class.definitions, List.length_append, List.length_map, List.length_map]

theorem fill_rra_str_eq_returned_iff {cls : Loaded_class} {rra_str : CStr} :
    fill_rra_str cls = .returned rra_str ↔
      (∀ rra ∈ cls.rra, cls.interval * rra.steps ≠ 0) ∧
        (definition_text cls).length < CONFIG_SYS_STR_SIZE ∧ definition_text cls = rra_str := by
  have hdivisor : cls.rra.all (fun rra => cls.interval * rra.steps ≠ 0) = true ↔
      ∀ rra ∈ cls.rra, cls.interval * rra.steps ≠ 0 := by
    rw [List.all_eq_true]
    simp only [decide_eq_true_eq]
  rw [fill_rra_str_eq, ← hdivisor]
  split
  · rename_i h
    exact ⟨fun heq => ⟨h.1, h.2, Course.returned.inj heq⟩, fun heq => congrArg _ heq.2.2⟩
  · rename_i h
    exact iff_of_false nofun fun heq => h ⟨heq.1, heq.2.1⟩

theorem passedOn_iff_tokens {cls : Loaded_class} : cls.PassedOn ↔
    (∀ rra ∈ cls.rra, cls.interval * rra.steps ≠ 0) ∧
      (definition_text cls).length < CONFIG_SYS_STR_SIZE ∧
      tokens ' ' (definition_text cls) = cls.definitions := by
  unfold Loaded_class.PassedOn
  rw [← length_definitions]
  constructor
  · rintro ⟨rra_str, hfill, -, hcount, hargv⟩
    obtain ⟨hdivisor, hlength, rfl⟩ := fill_rra_str_eq_returned_iff.mp hfill
    refine ⟨hdivisor, hlength, ?_⟩
    rw [← (tokenize_eq_returned_iff.mp hargv).2, List.take_of_length_le hcount.le]
  · rintro ⟨hdivisor, hlength, htokens⟩
    refine ⟨_, fill_rra_str_eq_returned_iff.mpr ⟨hdivisor, hlength, rfl⟩,
      Nat.le_of_lt_succ hlength, congrArg List.length htokens, ?_⟩
    rw [tokenize_eq_returned_iff, htokens, List.take_length]
    exact ⟨le_rfl, rfl⟩

theorem passedOn_iff_lengths {cls : Loaded_class} (hblank : cls.BlankFree) : cls.PassedOn ↔
    (∀ rra ∈ cls.rra, cls.interval * rra.steps ≠ 0) ∧
      (cls.definitions.map fun text => min (text.length + 1) 126).sum ≤ 1023 ∧
      (∀ text ∈ cls.definitions.dropLast, text.length < 126) ∧
      ∀ text ∈ cls.definitions.getLast?, text.length ≤ 126 := by
  rw [passedOn_iff_tokens, definition_text_eq, length_cut_words,
    tokens_cut_words_iff (by decide) hblank.words]
  exact and_congr_right' (and_congr_left' Nat.lt_succ_iff)

/-- The definitions are passed on exactly if they fit. -/
theorem passed_on_iff {cls : Loaded_class} (hblank : cls.BlankFree) :
    cls.PassedOn ↔ cls.Fits := by
  rw [passedOn_iff_lengths hblank]
  constructor
  · rintro ⟨hdivisor, hwhole, hblanks, hlast⟩
    exact ⟨hdivisor, hblanks, hlast, hwhole⟩
  · rintro ⟨hdivisor, hblanks, hlast, hwhole⟩
    exact ⟨hdivisor, hwhole, hblanks, hlast⟩

def octets_class (datatype : CStr) : Loaded_class where
  db_id := 1
  interval := 300
  name := "octets".toList
  oid := []
  host := []
  rrd_dir := []
  oid_rows := [⟨"ifInOctets".toList, ".1.3.6.1.2.1.2.2.1.10".toList, datatype⟩]
  rra := [⟨1, "AVERAGE".toList, 7, "0.500000".toList⟩]

theorem passed_on_octets : (octets_class "COUNTER".toList).PassedOn := by
  refine (passed_on_iff ⟨?_, ?_⟩).mpr ⟨?_, ?_, ?_, ?_⟩
  all_goals decide

def long_compute : CStr := "COMPUTE:".toList ++ List.replicate 120 '1'

theorem blank_not_mem_long_compute : ' ' ∉ long_compute := by
  unfold long_compute
  rw [List.mem_append, List.mem_replicate]
  rintro (h | ⟨_, h⟩)
  · exact absurd h (by decide)
  · exact absurd h (by decide)

theorem length_ds_definition_long (interval : UInt32) (ds_name oid_prefix : CStr) :
    (ds_definition interval ⟨ds_name, oid_prefix, long_compute⟩).length = ds_name.length + 132 := by
  have hcompute : strstr long_compute "COMPUTE".toList = some 0 :=
    strstr_eq_zero_iff.mpr ⟨':' :: List.replicate 120 '1', rfl⟩
  have hlength : long_compute.length = 128 := rfl
  unfold ds_definition
  rw [hcompute, if_neg (Option.some_ne_none 0)]
  simp only [List.length_append, hlength]
  show 3 + ds_name.length + 1 + 128 = _
  omega

theorem not_passed_on_compute :
    ¬∀ cls : Loaded_class, cls.oid_rows ≠ [] → cls.rra ≠ [] → cls.BlankFree →
      (∀ oid ∈ cls.oid_rows, oid.ds_name ≠ [] ∧ oid.ds_name.length ≤ 20 ∧ oid.datatype ≠ [] ∧
        oid.datatype.length ≤ 128) →
      (∀ rra ∈ cls.rra, rra.cf ≠ [] ∧ rra.cf.length ≤ 128) → cls.PassedOn := by
  intro hall
  have hblank : (octets_class long_compute).BlankFree := by
    refine ⟨fun oid hoid => ?_, by decide⟩
    obtain rfl := List.mem_singleton.mp hoid
    exact ⟨by decide, blank_not_mem_long_compute⟩
  have hcolumns : ∀ oid ∈ (octets_class long_compute).oid_rows, oid.ds_name ≠ [] ∧
      oid.ds_name.length ≤ 20 ∧ oid.datatype ≠ [] ∧ oid.datatype.length ≤ 128 := by
    intro oid hoid
    obtain rfl := List.mem_singleton.mp hoid
    exact ⟨by decide, by decide, List.cons_ne_nil 'C' _, le_rfl⟩
  have hpassed := hall (octets_class long_compute) (List.cons_ne_nil _ _) (List.cons_ne_nil _ _)
    hblank hcolumns (by decide)
  obtain ⟨-, -, hroom, -⟩ := (passedOn_iff_lengths hblank).mp hpassed
  have hlong := hroom _ (List.mem_cons_self ..)
  rw [length_ds_definition_long] at hlong
  exact absurd hlong (by decide)

/-! ## The rows of an archive -/

section Rows

variable (interval : UInt32) (rra : RRA_definition)

/-- The number of rows is computed without a division by zero and without wrapping, it is
the whole number of steps in the days, and it is printed as it is. -/
structure RowsExact : Prop where
  divisor : interval * rra.steps ≠ 0
  seconds : (rra.numdays * 3600 * 24).toNat = rra.numdays.toNat * 86400
  step : (interval * rra.steps).toNat = interval.toNat * rra.steps.toNat
  floor : (rra_rows interval rra).toNat =
    rra.numdays.toNat * 86400 / (interval.toNat * rra.steps.toNat)
  below : (rra_rows interval rra).toNat * interval.toNat * rra.steps.toNat ≤
    rra.numdays.toNat * 86400
  above : rra.numdays.toNat * 86400 <
    ((rra_rows interval rra).toNat + 1) * interval.toNat * rra.steps.toNat
  nonneg : 0 ≤ (rra_rows interval rra).toInt32.toInt

/-- The products fit into 32 bits and the divisor is not 0, and the rows fit into 31. -/
structure InRange : Prop where
  seconds : rra.numdays.toNat * 86400 < 2 ^ 32
  step : interval.toNat * rra.steps.toNat < 2 ^ 32
  divisor : 0 < interval.toNat * rra.steps.toNat
  rows : rra.numdays.toNat * 86400 < 2 ^ 31 * (interval.toNat * rra.steps.toNat)

variable {interval rra}

theorem toNat_seconds (numdays : UInt32) :
    (numdays * 3600 * 24).toNat = numdays.toNat * 86400 % 2 ^ 32 := by
  rw [UInt32.toNat_mul, UInt32.toNat_mul, Nat.mod_mul_mod, Nat.mul_assoc]
  rfl

theorem nonneg_iff (rows : UInt32) : 0 ≤ rows.toInt32.toInt ↔ rows.toNat < 2 ^ 31 := by
  have hbits : 0 ≤ rows.toInt32.toInt ↔ 2 * rows.toNat < 2 ^ 32 := BitVec.toInt_pos_iff
  omega

theorem InRange.toNat_rows (h : InRange interval rra) :
    (rra_rows interval rra).toNat =
      rra.numdays.toNat * 86400 / (interval.toNat * rra.steps.toNat) := by
  rw [rra_rows, UInt32.toNat_div, toNat_seconds, UInt32.toNat_mul, Nat.mod_eq_of_lt h.seconds,
    Nat.mod_eq_of_lt h.step]

end Rows

/-- The number of rows is exact precisely in that range. -/
theorem rows_exact_iff (interval : UInt32) (rra : RRA_definition) :
    RowsExact interval rra ↔ InRange interval rra := by
  constructor
  · rintro ⟨hdivisor, hseconds, hstep, hfloor, -, -, hnonneg⟩
    have hpos : 0 < interval.toNat * rra.steps.toNat := by
      apply Nat.pos_of_ne_zero
      intro hzero
      rw [← hstep] at hzero
      exact hdivisor (UInt32.toNat_inj.mp hzero)
    refine ⟨?_, ?_, hpos, ?_⟩
    · rw [← hseconds]
      exact UInt32.toNat_lt _
    · rw [← hstep]
      exact UInt32.toNat_lt _
    · rwa [nonneg_iff, hfloor, Nat.div_lt_iff_lt_mul hpos] at hnonneg
  · intro h
    have hrows := h.toNat_rows
    have hstep : (interval * rra.steps).toNat = interval.toNat * rra.steps.toNat := by
      rw [UInt32.toNat_mul, Nat.mod_eq_of_lt h.step]
    refine ⟨?_, ?_, hstep, hrows, ?_, ?_, ?_⟩
    · intro hzero
      have hpos := h.divisor
      rw [← hstep, hzero] at hpos
      exact absurd hpos (by decide)
    · rw [toNat_seconds, Nat.mod_eq_of_lt h.seconds]
    · rw [hrows, Nat.mul_assoc]
      exact Nat.div_mul_le_self _ _
    · rw [hrows, Nat.mul_assoc]
      exact Nat.lt_mul_of_div_lt (Nat.lt_succ_self _) h.divisor
    · rw [nonneg_iff, hrows, Nat.div_lt_iff_lt_mul h.divisor]
      exact h.rows

/-- The seconds of 49711 days no longer fit into 32 bits. -/
theorem rows_of_many_days :
    ¬∀ (interval : UInt32) (rra : RRA_definition), RowsExact interval rra := by
  intro hall
  have hseconds := (hall 300 ⟨1, "AVERAGE".toList, 49711, "0.500000".toList⟩).seconds
  exact absurd hseconds (by decide)

end SnappCollector.Config
