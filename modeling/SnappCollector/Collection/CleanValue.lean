import SnappCollector.CLib.Integer
import SnappCollector.CLib.Tokens

/-!
# Cleaning an SNMP value

`get_clean_snmpvalue` turns the text that net-snmp prints for a variable into the
text that goes into the update.  `the_value` points into the buffer, at one of two
constants, or nowhere; the model keeps the text it points to.
-/

namespace SnappCollector.Collection

open CLib

/-- The text at an offset of a buffer.  Behind the terminating NUL the buffer holds
whatever was there before: `none`. -/
def textAt (buf : CStr) (offset : Nat) : Option CStr :=
  if offset ≤ buf.length then some (buf.drop offset) else none

/-- `the_value` when the text is copied to `output`.  `none`: it points nowhere. -/
def the_value (buf : CStr) : Option CStr :=
  if strstr buf "Timeticks".toList ≠ none then
    -- the number between parentheses
    match (strtok_r '(' buf).bind fun (_, saveptr) => strtok_r ')' saveptr with
    | some (the_value, _) =>
        if strstr the_value "null".toList ≠ none then some "-1".toList else some the_value
    | none => some "-1".toList
  else if strstr buf "No Such Instance".toList ≠ none then some "0".toList
  else if strstr buf "No Such Object".toList ≠ none then some "0".toList
  else if strstr buf ":".toList = none then
    -- strstr gives NULL without a '=', and the code adds 2 to it all the same
    (strstr buf "=".toList).bind fun at_equals => textAt buf (at_equals + 2)
  else
    (strstr buf ":".toList).bind fun at_colon => textAt buf (at_colon + 2)

/-- The second chance matchings: what a value is replaced by that does not start
with a digit. -/
def second_chance (the_value : CStr) : CStr :=
  if strstr the_value "up(1)".toList ≠ none then "1".toList
  else if strstr the_value "down(2)".toList ≠ none ∨
      strstr the_value "lowerLayerDown(7)".toList ≠ none ∨
      strstr the_value "No Such Instance currently exists at this OID".toList ≠ none then
    "0".toList
  else "U".toList

/-- `get_clean_snmpvalue`.  `none`: it reads from a pointer that points nowhere. -/
def get_clean_snmpvalue (snmp_value_string : CStr) : Option CStr :=
  (the_value snmp_value_string).map fun the_value =>
    if (the_value.headD '\x00').isDigit then the_value else second_chance the_value

/-- The words that the scanner looks for before it looks for a colon. -/
def plain (text : CStr) : Prop :=
  ¬"Timeticks".toList <:+: text ∧ ¬"No Such Instance".toList <:+: text ∧
    ¬"No Such Object".toList <:+: text

theorem the_value_behind {tag value : CStr} {c : Char} (htag : ':' ∉ tag)
    (hplain : plain (tag ++ ':' :: c :: value)) :
    the_value (tag ++ ':' :: c :: value) = some value := by
  obtain ⟨hticks, hinstance, hobject⟩ := hplain
  have hcolon : strstr (tag ++ ':' :: c :: value) ":".toList = some tag.length :=
    strstr_singleton_append (c :: value) htag
  rw [the_value]
  simp only [strstr_eq_none hticks, strstr_eq_none hinstance, strstr_eq_none hobject, hcolon,
    ne_eq, not_true_eq_false, if_false, Option.bind_some, reduceCtorEq]
  have hle : tag.length + 2 ≤ (tag ++ ':' :: c :: value).length := by simp
  rw [textAt, if_pos hle]
  simp [← List.drop_drop]

theorem the_value_tagged {tag value : CStr} (htag : ':' ∉ tag)
    (hplain : plain (tag ++ ": ".toList ++ value)) :
    the_value (tag ++ ": ".toList ++ value) = some value := by
  have htext : tag ++ ": ".toList ++ value = tag ++ ':' :: ' ' :: value := by simp
  rw [htext] at hplain ⊢
  exact the_value_behind htag hplain

theorem headD_dec_isDigit (n : Nat) : ((dec n).headD '\x00').isDigit = true := by
  obtain ⟨c, rest, hdec⟩ := List.exists_cons_of_ne_nil (dec_ne_nil n)
  rw [hdec]
  exact isDigit_of_mem_dec (n := n) (by simp [hdec])

theorem get_clean_snmpvalue_tagged {tag : CStr} (n : Nat) (htag : ':' ∉ tag)
    (hplain : plain (tag ++ ": ".toList ++ dec n)) :
    get_clean_snmpvalue (tag ++ ": ".toList ++ dec n) = some (dec n) := by
  rw [get_clean_snmpvalue, the_value_tagged htag hplain, Option.map_some, headD_dec_isDigit,
    if_pos rfl]

def timeticks_text (ticks : Nat) (rest : CStr) : CStr :=
  ("Timeticks".toList ++ ": ".toList) ++ '(' :: (dec ticks ++ ')' :: rest)

theorem get_clean_snmpvalue_timeticks (ticks : Nat) (rest : CStr) :
    get_clean_snmpvalue (timeticks_text ticks rest) = some (dec ticks) := by
  have hword : "Timeticks".toList <+: timeticks_text ticks rest :=
    (List.prefix_append _ _).trans (List.prefix_append _ _)
  have hticks := strstr_ne_none_iff.mpr hword.isInfix
  have hfirst : strtok_r '(' (timeticks_text ticks rest) =
      some ("Timeticks".toList ++ ": ".toList, dec ticks ++ ')' :: rest) :=
    strtok_r_word_delim (by decide) (by decide) _
  have hsecond : strtok_r ')' (dec ticks ++ ')' :: rest) = some (dec ticks, rest) :=
    strtok_r_word_delim (dec_ne_nil ticks) (not_mem_dec (by decide) ticks) rest
  have hnull : strstr (dec ticks) "null".toList = none := by
    apply strstr_eq_none
    intro hinfix
    have hmem : 'n' ∈ dec ticks := hinfix.subset (by decide)
    exact not_mem_dec (by decide) ticks hmem
  have hvalue : the_value (timeticks_text ticks rest) = some (dec ticks) := by
    rw [the_value, if_pos hticks]
    simp only [hfirst, Option.bind_some, hsecond, hnull, ne_eq, not_true_eq_false, if_false]
  rw [get_clean_snmpvalue, hvalue, Option.map_some, headD_dec_isDigit, if_pos rfl]

end SnappCollector.Collection
