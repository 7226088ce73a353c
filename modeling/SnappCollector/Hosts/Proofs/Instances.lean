import SnappCollector.Hosts.Proofs.Walks

/-!
# What is recorded of an instance

The suffix of an instance is what its printed name has behind the text that is searched for,
where that text is found first.  Its value is what `snprint_value` wrote behind the tag,
less the quotes around it; the test for the closing quote reads a character of it if there
is one.
-/

namespace SnappCollector.Hosts

open CLib Collection Config Data

/-! ## The suffix -/

section

variable {first printed suffix : CStr}

/-- The text that is searched for does not occur in front of the end of the printed name. -/
theorem suffix_str_eq_iff (hprinted : search_string first <:+ printed) :
    suffix_str first (printed ++ '.' :: suffix) = .returned suffix ↔
      strstr printed (search_string first) =
        some (printed.length - (search_string first).length) := by
  obtain ⟨found, hfound⟩ := Option.isSome_iff_exists.mp (strstr_isSome hprinted.isInfix)
  have hlength := hprinted.length_le
  have hinside := strstr_add_length_le hfound
  have hbehind : found + (search_string first).length + 1 ≤
      (printed ++ '.' :: suffix).length := by
    rw [List.length_append, List.length_cons]
    omega
  unfold suffix_str
  rw [strstr_append_right hprinted.isInfix, hfound]
  dsimp only
  rw [if_pos hbehind, Course.returned.injEq, Option.some.injEq]
  constructor
  · intro hdrop
    have hlengths := congrArg List.length hdrop
    rw [List.length_drop, List.length_append, List.length_cons] at hlengths
    omega
  · intro hend
    have hwhole : found + (search_string first).length + 1 = printed.length + 1 := by omega
    rw [hwhole, ← List.drop_drop, List.drop_left]
    rfl

/-- An instance that is printed as `objid` gets the suffix in both maps, whatever its value. -/
def SuffixRecorded (first objid suffix : CStr) : Prop :=
  ∀ (root : Oid) (last : Bool) (v : BulkVariable) (w : Walk) (value : CStr),
    v.in_table root = true → v.objid = objid →
    extract_value_from_raw v.before v.text = .returned value →
    ∃ w', walk_variable first root last v w = .returned w' ∧
      w'.suffix_of.lookup value = some suffix ∧ w'.value_of.lookup suffix = some value

theorem suffixRecorded_iff_suffix_str {objid : CStr} :
    SuffixRecorded first objid suffix ↔ suffix_str first objid = .returned suffix := by
  constructor
  · intro hrecorded
    let v : BulkVariable := ⟨⟨.value, "INTEGER: 2".toList⟩, [], objid, ' '⟩
    have hvalue : extract_value_from_raw v.before v.text = .returned "2".toList := rfl
    generalize "2".toList = value at hvalue
    obtain ⟨w', hw', hsuffix, _⟩ := hrecorded [] true v (walk_start [] ∅) value rfl rfl hvalue
    rw [walk_variable_of_in_table rfl, Course.bind_eq_returned] at hw'
    obtain ⟨maps, hmaps, hlast⟩ := hw'
    obtain ⟨found, value', hfound, hvalue', rfl⟩ := record_variable_eq_returned.mp hmaps
    obtain rfl : value = value' := Course.returned.inj (hvalue.symm.trans hvalue')
    cases hlast
    dsimp only at hsuffix
    rw [AList.lookup_insert, Option.some.injEq] at hsuffix
    rw [← hsuffix]
    exact hfound
  · intro hsuffix root last v w value hin hobjid hvalue
    rw [walk_variable_of_in_table hin,
      record_variable_eq_returned.mpr ⟨suffix, value, hobjid ▸ hsuffix, hvalue, rfl⟩]
    exact ⟨_, rfl, AList.lookup_insert _, AList.lookup_insert _⟩

/-- The suffix is recorded as it is exactly if the text that is searched for first occurs at
the end of the printed name. -/
theorem suffixRecorded_iff (hprinted : search_string first <:+ printed) (suffix : CStr) :
    SuffixRecorded first (printed ++ '.' :: suffix) suffix ↔
      strstr printed (search_string first) =
        some (printed.length - (search_string first).length) := by
  rw [suffixRecorded_iff_suffix_str, suffix_str_eq_iff hprinted]

end

theorem suffixRecorded_ifDescr :
    SuffixRecorded ".1.3.6.1.2.1.2.2.1.2".toList (".1.3.6.1.2.1.2.2.1.2".toList ++ ".2".toList)
      "2".toList :=
  (suffixRecorded_iff (List.drop_suffix _ _) _).mpr (by decide)

/-- Of six equal numbers at the end, the search finds the first four. -/
theorem not_suffixRecorded_of_repeated :
    ¬SuffixRecorded ".1.3.6.1.4.1.1.1.1.1.1".toList
      (".1.3.6.1.4.1.1.1.1.1.1".toList ++ ".7".toList) "7".toList := by
  rw [suffixRecorded_iff_suffix_str]
  decide

/-! ## The value -/

def text_behind (rest : CStr) : CStr :=
  match rest.dropWhile is_space with
  | '"' :: value => value
  | value => value

theorem text_behind_suffix (rest : CStr) : text_behind rest <:+ rest := by
  have hdrop := List.dropWhile_suffix is_space (l := rest)
  unfold text_behind
  split
  · rename_i value hvalue
    rw [hvalue] at hdrop
    exact (List.suffix_cons _ _).trans hdrop
  · exact hdrop

theorem text_behind_eq_nil_iff {rest : CStr} :
    text_behind rest = [] ↔ rest.dropWhile is_space = [] ∨ rest.dropWhile is_space = ['"'] := by
  unfold text_behind
  split
  · rename_i value hvalue
    simp [hvalue]
  · rename_i hquote
    constructor
    · exact Or.inl
    · rintro (hnil | hone)
      · exact hnil
      · exact absurd hone (hquote [])

/-- The pattern first matches behind the colons in front of the text. -/
theorem value_match_split {colons tag : CStr} (hcolons : ∀ c ∈ colons, c = ':') (htag : tag ≠ [])
    (hcolon : ':' ∉ tag) (rest : CStr) :
    value_match (colons ++ tag ++ ':' :: rest) = some (text_behind rest) := by
  have hstart : (colons ++ tag ++ ':' :: rest).dropWhile (· = ':') = tag ++ ':' :: rest := by
    rw [List.append_assoc, List.dropWhile_append_of_pos fun c hc => decide_eq_true (hcolons c hc)]
    cases tag with
    | nil => exact absurd rfl htag
    | cons c tag =>
        have hc : c ≠ ':' := fun heq => hcolon (heq ▸ List.mem_cons_self ..)
        rw [List.cons_append, List.dropWhile_cons_of_neg (by simpa using hc)]
  have htail : (tag ++ ':' :: rest).dropWhile (· ≠ ':') = ':' :: rest := by
    have hnone : ∀ c ∈ tag, decide (c ≠ ':') = true := by
      intro c hc
      exact decide_eq_true fun heq => hcolon (heq ▸ hc)
    rw [List.dropWhile_append_of_pos hnone, List.dropWhile_cons_of_neg (by decide)]
  unfold value_match text_behind
  rw [hstart, htail]
  dsimp only
  cases rest.dropWhile is_space with
  | nil => rfl
  | cons c value =>
      by_cases hquote : c = '"'
      · subst hquote
        rfl
      · simp [hquote]

/-- Where the pattern matches there is a colon behind some other character. -/
theorem exists_split_of_value_match {check_string value : CStr}
    (hmatch : value_match check_string = some value) :
    ∃ colons tag rest, check_string = colons ++ tag ++ ':' :: rest ∧ (∀ c ∈ colons, c = ':') ∧
      tag ≠ [] ∧ ':' ∉ tag := by
  have hcolons : ∀ c ∈ check_string.takeWhile (· = ':'), c = ':' :=
    fun c hc => of_decide_eq_true (List.mem_takeWhile_imp (p := (· = ':')) hc)
  have hwhole := List.takeWhile_append_dropWhile (p := (· = ':')) (l := check_string)
  have hfirst := List.head?_dropWhile_not (· = ':') check_string
  unfold value_match at hmatch
  generalize check_string.takeWhile (· = ':') = colons at hcolons hwhole
  generalize check_string.dropWhile (· = ':') = text at hmatch hwhole hfirst
  have htag : ':' ∉ text.takeWhile (· ≠ ':') :=
    fun hc => of_decide_eq_true (List.mem_takeWhile_imp (p := (· ≠ ':')) hc) rfl
  have htext := List.takeWhile_append_dropWhile (p := (· ≠ ':')) (l := text)
  have hbehind := List.head?_dropWhile_not (· ≠ ':') text
  cases hrest : text.dropWhile (· ≠ ':') with
  | nil =>
      rw [hrest] at hmatch
      cases hmatch
  | cons c rest =>
      rw [hrest] at htext hbehind
      obtain rfl : c = ':' := by simpa using hbehind
      refine ⟨colons, text.takeWhile (· ≠ ':'), rest, ?_, hcolons, ?_, htag⟩
      · rw [List.append_assoc, htext, hwhole]
      · intro hnil
        rw [hnil, List.nil_append] at htext
        rw [← htext] at hfirst
        exact absurd hfirst (by simp)

section

variable {tag : CStr}

theorem value_match_tagged (htag : tag ≠ []) (hcolon : ':' ∉ tag) (rest : CStr) :
    value_match (tag ++ ": ".toList ++ rest) = some (text_behind rest) := by
  have htext : tag ++ ": ".toList ++ rest = [] ++ tag ++ ':' :: (' ' :: rest) := by
    rw [List.append_assoc]
    rfl
  rw [htext, value_match_split (fun _ hc => absurd hc List.not_mem_nil) htag hcolon]
  rfl

theorem extract_of_value_match {raw out_string : CStr} (hlength : raw.length ≤ 255)
    (hmatch : value_match raw = some out_string) (hne : out_string ≠ []) (before : Char) :
    extract_value_from_raw before raw =
      .returned (if out_string.getLast? = some '"' then out_string.dropLast else out_string) := by
  have hwhole : raw.take (STD_STRING_SIZE - 1) = raw := List.take_of_length_le hlength
  have hlast : ('"' = out_string.getLastD before) = (out_string.getLast? = some '"') := by
    rw [List.getLastD_eq_getLast?, List.getLast?_eq_some_getLast hne, Option.getD_some,
      Option.some.injEq]
    exact propext eq_comm
  unfold extract_value_from_raw
  simp only [hwhole, hmatch, Option.getD_some, hlast, hne, if_false]
  split
  · rfl
  · rfl

theorem extract_quoted (htag : tag ≠ []) (hcolon : ':' ∉ tag) (before : Char) {v : CStr}
    (hlength : (tag ++ ": ".toList ++ ('"' :: v ++ ['"'])).length ≤ 255) :
    extract_value_from_raw before (tag ++ ": ".toList ++ ('"' :: v ++ ['"'])) = .returned v := by
  have hmatch : value_match (tag ++ ": ".toList ++ ('"' :: v ++ ['"'])) = some (v ++ ['"']) := by
    rw [value_match_tagged htag hcolon, text_behind, List.cons_append,
      List.dropWhile_cons_of_neg (by decide)]
    rfl
  have hne : v ++ ['"'] ≠ [] := by simp
  rw [extract_of_value_match hlength hmatch hne, if_pos (List.getLast?_concat ..),
    List.dropLast_concat]

theorem extract_plain (htag : tag ≠ []) (hcolon : ':' ∉ tag) (before : Char) {v : CStr}
    (hne : v ≠ []) (hhead : ∀ c ∈ v.head?, is_space c = false ∧ c ≠ '"')
    (hlast : v.getLast? ≠ some '"') (hlength : (tag ++ ": ".toList ++ v).length ≤ 255) :
    extract_value_from_raw before (tag ++ ": ".toList ++ v) = .returned v := by
  have hmatch : value_match (tag ++ ": ".toList ++ v) = some v := by
    rw [value_match_tagged htag hcolon, text_behind]
    cases v with
    | nil => exact absurd rfl hne
    | cons c v =>
        obtain ⟨hspace, hquote⟩ := hhead c rfl
        rw [List.dropWhile_cons_of_neg (by simp [hspace])]
        split
        · rename_i heq
          cases heq
          exact absurd rfl hquote
        · rfl
  rw [extract_of_value_match hlength hmatch hne, if_neg hlast]

/-- What is printed in quotes comes back, and so does what is printed without them if there
is no white space in front of it, and no quote at either end. -/
theorem extract_printed (htag : tag ≠ []) (hcolon : ':' ∉ tag) (before : Char) :
    (∀ v, (tag ++ ": ".toList ++ ('"' :: v ++ ['"'])).length ≤ 255 →
      extract_value_from_raw before (tag ++ ": ".toList ++ ('"' :: v ++ ['"'])) = .returned v) ∧
    (∀ v, v ≠ [] → (∀ c ∈ v.head?, is_space c = false ∧ c ≠ '"') → v.getLast? ≠ some '"' →
      (tag ++ ": ".toList ++ v).length ≤ 255 →
      extract_value_from_raw before (tag ++ ": ".toList ++ v) = .returned v) :=
  ⟨fun _ hlength => extract_quoted htag hcolon before hlength,
    fun _ hne hhead hlast hlength => extract_plain htag hcolon before hne hhead hlast hlength⟩

end

/-- `say "so: yes"` in quotes, and `a "b": c` without. -/
theorem extract_string :
    extract_value_from_raw ' '
        ("STRING".toList ++ ": ".toList ++ ('"' :: "say \"so: yes\"".toList ++ ['"'])) =
      .returned "say \"so: yes\"".toList ∧
    extract_value_from_raw ' ' ("STRING".toList ++ ": ".toList ++ "a \"b\": c".toList) =
      .returned "a \"b\": c".toList := by
  have hprinted := @extract_printed "STRING".toList (by decide) (by decide) ' '
  have hhead : ∀ c ∈ "a \"b\": c".toList.head?, is_space c = false ∧ c ≠ '"' := by
    rintro c ⟨⟩
    decide
  exact ⟨hprinted.1 _ (by decide), hprinted.2 _ (by decide) hhead (by decide) (by decide)⟩

/-- A new line in front of the text is neither a blank nor a quote, and is lost. -/
theorem newline_lost :
    ¬∀ (before : Char) (tag v : CStr), tag ≠ [] → ':' ∉ tag → v ≠ [] →
      (∀ c ∈ v.head?, c ≠ ' ' ∧ c ≠ '\t' ∧ c ≠ '"') → v.getLast? ≠ some '"' →
      (tag ++ ": ".toList ++ v).length ≤ 255 →
      extract_value_from_raw before (tag ++ ": ".toList ++ v) = .returned v := by
  intro hall
  have hhead : ∀ c ∈ "\nx".toList.head?, c ≠ ' ' ∧ c ≠ '\t' ∧ c ≠ '"' := by
    rintro c ⟨⟩
    decide
  have hlost := hall ' ' "STRING".toList "\nx".toList (by decide) (by decide) (by decide) hhead
    (by decide) (by decide)
  revert hlost
  decide

/-! ## The final test -/

/-- What `out_string` holds at the final test: nothing if the pattern does not match. -/
def out_string (raw : CStr) : CStr := (value_match (raw.take (STD_STRING_SIZE - 1))).getD []

/-- The index in `out_string[out_string.length()-1]`, computed in `size_t`. -/
def last_index (s : CStr) : UInt64 := UInt64.ofNat s.length - 1

/-- The final test reads a character of `out_string`, and `resize` gets no negative length. -/
def FinalTestSafe (raw : CStr) : Prop :=
  (last_index (out_string raw)).toNat < (out_string raw).length ∧
    0 ≤ ((out_string raw).length : Int) - 1

/-- Behind the first colon that follows another character there is more than white space
and a quote. -/
def HasText (check_string : CStr) : Prop :=
  ∃ colons tag rest, check_string = colons ++ tag ++ ':' :: rest ∧ (∀ c ∈ colons, c = ':') ∧
    tag ≠ [] ∧ ':' ∉ tag ∧ rest.dropWhile is_space ≠ [] ∧ rest.dropWhile is_space ≠ ['"']

theorem length_out_string_le (raw : CStr) : (out_string raw).length ≤ 255 := by
  unfold out_string
  cases hmatch : value_match (raw.take (STD_STRING_SIZE - 1)) with
  | none => exact Nat.zero_le _
  | some value =>
      obtain ⟨colons, tag, rest, hsplit, hcolons, htag, hcolon⟩ :=
        exists_split_of_value_match hmatch
      rw [hsplit, value_match_split hcolons htag hcolon] at hmatch
      have hvalue := (text_behind_suffix rest).length_le
      have hlength := congrArg List.length hsplit
      have htake : (raw.take (STD_STRING_SIZE - 1)).length ≤ 255 := List.length_take_le _ _
      rw [Option.some.inj hmatch] at hvalue
      rw [List.length_append, List.length_cons] at hlength
      rw [Option.getD_some]
      omega

theorem finalTestSafe_iff_ne_nil {raw : CStr} : FinalTestSafe raw ↔ out_string raw ≠ [] := by
  constructor
  · intro hsafe hempty
    have hinside := hsafe.1
    rw [hempty] at hinside
    exact Nat.not_lt_zero _ hinside
  · intro hne
    have hpos := List.length_pos_of_ne_nil hne
    have hle := length_out_string_le raw
    have hsize : (UInt64.ofNat (out_string raw).length).toNat = (out_string raw).length :=
      UInt64.toNat_ofNat_of_lt' (by rw [UInt64.size]; omega)
    have hindex : (last_index (out_string raw)).toNat = (out_string raw).length - 1 := by
      have hone : 1 ≤ UInt64.ofNat (out_string raw).length := by
        rw [UInt64.le_iff_toNat_le, hsize]
        exact hpos
      rw [last_index, UInt64.toNat_sub_of_le _ _ hone, hsize]
      rfl
    exact ⟨by omega, by omega⟩

/-- A safe test does not depend on the memory around the string, and an unsafe one does. -/
theorem finalTestSafe_iff_eq {raw : CStr} :
    FinalTestSafe raw ↔ ∀ before before',
      extract_value_from_raw before raw = extract_value_from_raw before' raw := by
  rw [finalTestSafe_iff_ne_nil, out_string]
  unfold extract_value_from_raw
  dsimp only
  generalize (value_match (raw.take (STD_STRING_SIZE - 1))).getD [] = out_string
  constructor
  · intro hne before before'
    have hlast : ∀ c, out_string.getLastD c = out_string.getLast hne := by
      intro c
      rw [List.getLastD_eq_getLast?, List.getLast?_eq_some_getLast hne, Option.getD_some]
    rw [hlast, hlast]
  · rintro hall rfl
    exact absurd (hall '"' ' ') (by decide)

theorem finalTestSafe_iff (raw : CStr) : FinalTestSafe raw ↔ HasText (raw.take 255) := by
  rw [finalTestSafe_iff_ne_nil, out_string]
  constructor
  · intro hne
    cases hmatch : value_match (raw.take 255) with
    | none => exact absurd (congrArg (Option.getD · []) hmatch) hne
    | some value =>
        obtain ⟨colons, tag, rest, hsplit, hcolons, htag, hcolon⟩ :=
          exists_split_of_value_match hmatch
        have hvalue := value_match_split hcolons htag hcolon rest
        rw [← hsplit] at hvalue
        have htext : text_behind rest ≠ [] := by
          rintro hnil
          exact hne (congrArg (Option.getD · []) (hvalue.trans (congrArg some hnil)))
        rw [ne_eq, text_behind_eq_nil_iff, not_or] at htext
        exact ⟨colons, tag, rest, hsplit, hcolons, htag, hcolon, htext⟩
  · rintro ⟨colons, tag, rest, hsplit, hcolons, htag, hcolon, hspace, hquote⟩
    have hmatch : value_match (raw.take (STD_STRING_SIZE - 1)) = some (text_behind rest) := by
      rw [← value_match_split hcolons htag hcolon, ← hsplit]
      rfl
    rw [hmatch, Option.getD_some, ne_eq, text_behind_eq_nil_iff]
    exact not_or.mpr ⟨hspace, hquote⟩

/-- net-snmp prints an empty text as two quotes, without a tag. -/
theorem not_finalTestSafe_of_empty : ¬∀ raw, FinalTestSafe raw := by
  intro hall
  have hne := finalTestSafe_iff_ne_nil.mp (hall "\"\"".toList)
  exact hne (by decide)

end SnappCollector.Hosts
