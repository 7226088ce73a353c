import SnappCollector.CLib.Float
import SnappCollector.CLib.Tokens

/-!
# One RRD update

`RRD_datum` and its two conversions: from the text that `push_data` receives
(`string_to_long_doubles`) and to the text that the worker hands to
`rrd_update_r`.
-/

namespace SnappCollector.Writer

open CLib

def MAX_DS_PER_FILE : Nat := 20

def CONST_STRING_SIZE : Nat := 1024

/-- Container of a single rrd update.  `ds` lists the entries of the array that
have been written; the others hold whatever the stack held. -/
structure RRD_datum where
  time : CFloat
  filename_id : UInt32
  template_id : UInt32
  num_ds : UInt32
  ds : List CFloat
deriving DecidableEq

/-! ## From the text to the datum -/

/-- What an uninitialized `char *` holds. -/
inductive CharPtr where
  | null
  /-- it leads to the text -/
  | text (str : CStr)
  /-- it leads nowhere -/
  | wild
deriving DecidableEq

/-- Where `strtok_r (str1, ":", &saveptr1)` starts to read.  What it overwrites behind a
pointer to some other text is left out. -/
def strtok_start : CharPtr → CStr → Option CStr
  | .null, saveptr1 => some saveptr1
  | .text str1, _ => some str1
  | .wild, _ => none

def string_to_long_doubles_loop (libc : Libc) : Nat → CStr → List CFloat
  | 0, _ => []
  | left + 1, saveptr1 =>
      match strtok_r ':' saveptr1 with
      | none => []
      | some (token, saveptr1) =>
          libc.strtold token :: string_to_long_doubles_loop libc left saveptr1

/-- The return value and the entries of `vals` written.  The first `str1` of the loop is
`token`, which nothing has initialized, and not `in_string`; the later ones are NULL. -/
def string_to_long_doubles (libc : Libc) (token : CharPtr) (in_string : CStr) :
    Option (Int × List CFloat) :=
  (strtok_start token in_string).map fun str1 =>
    let vals := string_to_long_doubles_loop libc MAX_DS_PER_FILE str1
    if vals.length ≥ MAX_DS_PER_FILE then (-1, vals) else (vals.length, vals)

theorem string_to_long_doubles_loop_eq (libc : Libc) (left : Nat) (str : CStr) :
    string_to_long_doubles_loop libc left str =
      ((tokens ':' str).take left).map libc.strtold := by
  induction left generalizing str with
  | zero => simp [string_to_long_doubles_loop]
  | succ left ih =>
      rw [string_to_long_doubles_loop]
      cases htok : strtok_r ':' str with
      | none => simp [strtok_r_eq_none_iff.mp htok]
      | some found =>
          obtain ⟨token, saveptr1⟩ := found
          simp [tokens_of_strtok_r htok, ih]

section Conversion

variable (libc : Libc) {token : CharPtr} {in_string str : CStr}

theorem string_to_long_doubles_of_lt (hstart : strtok_start token in_string = some str)
    (h : (tokens ':' str).length < MAX_DS_PER_FILE) :
    string_to_long_doubles libc token in_string =
      some (((tokens ':' str).length : Int), (tokens ':' str).map libc.strtold) := by
  have hall : (tokens ':' str).take MAX_DS_PER_FILE = tokens ':' str :=
    List.take_of_length_le h.le
  have hless : ¬(tokens ':' str).length ≥ MAX_DS_PER_FILE := by omega
  rw [string_to_long_doubles, hstart, Option.map_some, string_to_long_doubles_loop_eq, hall]
  simp [hless]

/-- From `MAX_DS_PER_FILE` tokens on the array is full, and the result is -1. -/
theorem string_to_long_doubles_of_ge (hstart : strtok_start token in_string = some str)
    (h : MAX_DS_PER_FILE ≤ (tokens ':' str).length) :
    string_to_long_doubles libc token in_string =
      some (-1, ((tokens ':' str).take MAX_DS_PER_FILE).map libc.strtold) := by
  have hfull : (((tokens ':' str).take MAX_DS_PER_FILE).map libc.strtold).length ≥
      MAX_DS_PER_FILE := by
    rw [List.length_map, List.length_take]
    omega
  rw [string_to_long_doubles, hstart, Option.map_some, string_to_long_doubles_loop_eq]
  exact congrArg some (if_pos hfull)

theorem string_to_long_doubles_of_wild (hstart : strtok_start token in_string = none) :
    string_to_long_doubles libc token in_string = none := by
  rw [string_to_long_doubles, hstart, Option.map_none]

end Conversion

/-! ## From the datum to the text -/

/-- One value of the update as `sprintf` writes it into `temp_str`. -/
def temp_str (libc : Libc) (v : CFloat) : CStr :=
  if v.isnan then ":U".toList else ':' :: dec (v.toULL libc.ullUndefined).toNat

/-- The loop over `ds`, at entry `i` with `left` entries to come.  `none`: it
reads an entry that was never written, or one outside the array. -/
def value_str_loop (libc : Libc) (ds : List CFloat) : Nat → Nat → CStr → Option CStr
  | 0, _, value_str => some value_str
  | left + 1, i, value_str =>
      match ds[i]? with
      | none => none
      | some v =>
          value_str_loop libc ds left (i + 1)
            (strncat value_str (temp_str libc v) (CONST_STRING_SIZE - value_str.length))

/-- The update text of a datum, `rrd_argv[0]` of `rrd_update_r`. -/
def value_str (libc : Libc) (datum : RRD_datum) : Option CStr :=
  value_str_loop libc datum.ds datum.num_ds.toNat 0
    (dec (datum.time.toULL libc.ullUndefined).toNat)

theorem length_dec_ull (x : UInt64) : (dec x.toNat).length ≤ 20 :=
  length_dec_le (by decide) (lt_trans x.toNat_lt (by decide))

theorem length_temp_str (libc : Libc) (v : CFloat) : (temp_str libc v).length ≤ 21 := by
  rw [temp_str]
  split
  · decide
  · have hdec := length_dec_ull (v.toULL libc.ullUndefined)
    rw [List.length_cons]
    omega

/-- While the buffer has room for every value, the loop appends them in order. -/
theorem value_str_loop_eq (libc : Libc) (ds : List CFloat) (left i : Nat) (acc : CStr)
    (hread : i + left ≤ ds.length) (hroom : acc.length + left * 21 ≤ CONST_STRING_SIZE) :
    value_str_loop libc ds left i acc =
      some (acc ++ (((ds.drop i).take left).map (temp_str libc)).flatten) := by
  induction left generalizing i acc with
  | zero => simp [value_str_loop]
  | succ left ih =>
      have hi : i < ds.length := by omega
      have hlen := length_temp_str libc ds[i]
      have hfits : (temp_str libc ds[i]).length ≤ CONST_STRING_SIZE - acc.length := by omega
      rw [value_str_loop, List.getElem?_eq_getElem hi]
      simp only [strncat_of_le acc hfits]
      rw [ih (i + 1) _ (by omega) (by rw [List.length_append]; omega)]
      rw [List.drop_eq_getElem_cons hi, List.take_succ_cons]
      simp

theorem value_str_eq (libc : Libc) {datum : RRD_datum}
    (hnum : datum.num_ds.toNat = datum.ds.length)
    (hmax : datum.ds.length ≤ MAX_DS_PER_FILE) :
    value_str libc datum =
      some (dec (datum.time.toULL libc.ullUndefined).toNat ++
        (datum.ds.map (temp_str libc)).flatten) := by
  have htime := length_dec_ull (datum.time.toULL libc.ullUndefined)
  have hroom : (dec (datum.time.toULL libc.ullUndefined).toNat).length +
      datum.ds.length * 21 ≤ CONST_STRING_SIZE := by
    simp only [MAX_DS_PER_FILE] at hmax
    simp only [CONST_STRING_SIZE]
    omega
  rw [value_str, hnum, value_str_loop_eq libc _ _ _ _ (by omega) hroom]
  simp

end SnappCollector.Writer
