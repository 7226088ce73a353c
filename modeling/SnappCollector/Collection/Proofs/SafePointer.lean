import Mathlib.Data.List.Infix
import SnappCollector.Collection.CleanValue

/-!
# Where a value stands in its buffer

Before `get_clean_snmpvalue` reads the value it points to it in one of five ways.  Two of
them take the character behind a mark to be a blank, and do not look whether it is there.
-/

namespace SnappCollector.Collection

open CLib

/-- The text in the buffer when `the_value` is used: two branches copy a new one into it. -/
def buffer_text (buf : CStr) : CStr :=
  if "Timeticks".toList <:+: buf then buf
  else if "No Such Instance".toList <:+: buf then "0".toList
  else if "No Such Object".toList <:+: buf then "0".toList
  else buf

/-- `the_value` points to the constant, or to a place in the text, at most at the NUL.
`strtok_r` may end what stands there. -/
def SafePointer (buf : CStr) : Prop :=
  ∃ value, the_value buf = some value ∧ (value = "-1".toList ∨
    ∃ offset ≤ (buffer_text buf).length, value <+: (buffer_text buf).drop offset)

def FirstFollowed (mark : Char) (text : CStr) : Prop :=
  ∃ tag c value, text = tag ++ mark :: c :: value ∧ mark ∉ tag

def HasPlace (text : CStr) : Prop :=
  ¬plain text ∨ FirstFollowed ':' text ∨ ':' ∉ text ∧ FirstFollowed '=' text

/-- Two characters from a mark on there is still the text exactly if something follows it. -/
theorem textAt_behind_iff {mark : Char} {buf : CStr} :
    ((strstr buf [mark]).bind fun at_mark => textAt buf (at_mark + 2)).isSome ↔
      FirstFollowed mark buf := by
  constructor
  · intro hsome
    obtain ⟨value, hvalue⟩ := Option.isSome_iff_exists.mp hsome
    obtain ⟨found, hfound, htext⟩ := Option.bind_eq_some_iff.mp hvalue
    have hmem : mark ∈ buf := by
      have hinfix := strstr_ne_none_iff.mp (hfound ▸ Option.some_ne_none found)
      exact hinfix.subset (List.mem_singleton_self mark)
    obtain ⟨tag, rest, rfl, htag⟩ := List.eq_append_cons_of_mem hmem
    rw [strstr_singleton_append rest htag, Option.some.injEq] at hfound
    subst hfound
    cases rest with
    | nil => simp [textAt] at htext
    | cons c value => exact ⟨tag, c, value, rfl, htag⟩
  · rintro ⟨tag, c, value, rfl, htag⟩
    rw [strstr_singleton_append (c :: value) htag]
    simp [textAt]

theorem textAt_offset {buf value : CStr} {offset : Nat} (h : textAt buf offset = some value) :
    offset ≤ buf.length ∧ value <+: buf.drop offset := by
  unfold textAt at h
  split at h
  · rename_i hle
    cases h
    exact ⟨hle, List.prefix_rfl⟩
  · cases h

theorem exists_offset_within {value text : CStr} (h : value <:+: text) :
    ∃ offset ≤ text.length, value <+: text.drop offset := by
  obtain ⟨before, behind, rfl⟩ := h
  refine ⟨before.length, ?_, ?_⟩
  · rw [List.append_assoc, List.length_append]
    exact Nat.le_add_right _ _
  · rw [List.append_assoc, List.drop_left]
    exact List.prefix_append _ _

theorem token_within {delim : Char} {str token saveptr : CStr}
    (h : CLib.Scanned delim str token saveptr) : token <:+: str ∧ saveptr <:+ str := by
  cases h with
  | last n hne hw => exact ⟨(List.suffix_append _ _).isInfix, List.nil_suffix⟩
  | word n hne hw _ =>
      constructor
      · exact (List.prefix_append _ _).isInfix.trans (List.suffix_append _ _).isInfix
      · refine List.IsSuffix.trans ?_ (List.suffix_append _ _)
        exact (List.suffix_cons _ _).trans (List.suffix_append _ _)

theorem safePointer_of_timeticks {buf : CStr} (hticks : "Timeticks".toList <:+: buf) :
    SafePointer buf := by
  have hbuffer : buffer_text buf = buf := if_pos hticks
  unfold SafePointer the_value
  rw [if_pos (strstr_ne_none_iff.mpr hticks), hbuffer]
  split
  · rename_i value saveptr htokens
    obtain ⟨⟨first, rest⟩, hfirst, hsecond⟩ := Option.bind_eq_some_iff.mp htokens
    split
    · exact ⟨_, rfl, .inl rfl⟩
    · have hrest := (token_within (strtok_r_eq_some_iff.mp hfirst)).2
      have hvalue := (token_within (strtok_r_eq_some_iff.mp hsecond)).1
      exact ⟨_, rfl, .inr (exists_offset_within (hvalue.trans hrest.isInfix))⟩
  · exact ⟨_, rfl, .inl rfl⟩

theorem safePointer_of_missing {buf : CStr} (hticks : ¬"Timeticks".toList <:+: buf)
    (hmissing : "No Such Instance".toList <:+: buf ∨ "No Such Object".toList <:+: buf) :
    SafePointer buf := by
  have hboth : the_value buf = some "0".toList ∧ buffer_text buf = "0".toList := by
    unfold the_value buffer_text
    simp only [strstr_ne_none_iff, hticks, if_false]
    by_cases hinstance : "No Such Instance".toList <:+: buf
    · simp only [hinstance, if_true, and_self]
    · have hobject := hmissing.resolve_left hinstance
      simp only [hinstance, hobject, if_false, if_true, and_self]
  rw [SafePointer, hboth.1, hboth.2]
  exact ⟨_, rfl, .inr ⟨0, Nat.zero_le _, List.prefix_rfl⟩⟩

def value_mark (text : CStr) : Char := if ':' ∈ text then ':' else '='

theorem the_value_plain {buf : CStr} (hplain : plain buf) :
    the_value buf =
      (strstr buf [value_mark buf]).bind fun at_mark => textAt buf (at_mark + 2) := by
  obtain ⟨hticks, hinstance, hobject⟩ := hplain
  unfold the_value value_mark
  simp only [strstr_ne_none_iff, hticks, hinstance, hobject, if_false]
  by_cases hcolon : ':' ∈ buf
  · have hfound : strstr buf ":".toList ≠ none :=
      strstr_ne_none_iff.mpr ((List.singleton_infix_iff _ _).mpr hcolon)
    rw [if_neg hfound, if_pos hcolon]
    rfl
  · have hnone : strstr buf ":".toList = none :=
      strstr_eq_none fun hinfix => hcolon ((List.singleton_infix_iff _ _).mp hinfix)
    rw [if_pos hnone, if_neg hcolon]
    rfl

theorem safePointer_plain_iff {buf : CStr} (hplain : plain buf) :
    SafePointer buf ↔ FirstFollowed (value_mark buf) buf := by
  have hvalue := the_value_plain hplain
  obtain ⟨hticks, hinstance, hobject⟩ := hplain
  have hbuffer : buffer_text buf = buf := by
    unfold buffer_text
    simp only [hticks, hinstance, hobject, if_false]
  rw [← textAt_behind_iff, ← hvalue, Option.isSome_iff_exists, SafePointer, hbuffer]
  constructor
  · rintro ⟨value, hsome, _⟩
    exact ⟨value, hsome⟩
  · rintro ⟨value, hsome⟩
    refine ⟨value, hsome, .inr ?_⟩
    rw [hvalue] at hsome
    obtain ⟨found, _, htext⟩ := Option.bind_eq_some_iff.mp hsome
    exact ⟨found + 2, textAt_offset htext⟩

theorem firstFollowed_mark_iff {text : CStr} :
    FirstFollowed (value_mark text) text ↔
      FirstFollowed ':' text ∨ ':' ∉ text ∧ FirstFollowed '=' text := by
  unfold value_mark
  by_cases hcolon : ':' ∈ text
  · rw [if_pos hcolon]
    exact ⟨.inl, fun h => h.resolve_right fun hnone => hnone.1 hcolon⟩
  · rw [if_neg hcolon]
    constructor
    · exact fun h => .inr ⟨hcolon, h⟩
    · rintro (⟨tag, c, value, rfl, _⟩ | ⟨_, h⟩)
      · exact absurd (by simp) hcolon
      · exact h

/-- The pointer is safe exactly if the text holds one of the words or something behind the
mark. -/
theorem safePointer_iff (buf : CStr) : SafePointer buf ↔ HasPlace buf := by
  unfold HasPlace
  by_cases hplain : plain buf
  · rw [safePointer_plain_iff hplain, firstFollowed_mark_iff]
    exact ⟨.inr, fun h => h.resolve_left (not_not.mpr hplain)⟩
  · refine iff_of_true ?_ (.inl hplain)
    by_cases hticks : "Timeticks".toList <:+: buf
    · exact safePointer_of_timeticks hticks
    · apply safePointer_of_missing hticks
      by_contra hmissing
      exact hplain ⟨hticks, not_or.mp hmissing⟩

/-- net-snmp prints an empty text as two quotes: no colon, and no equals sign. -/
theorem empty_text_unsafe : ¬∀ buf : CStr, buf.length < 512 → SafePointer buf := by
  intro hall
  obtain ⟨value, hvalue, _⟩ := hall "\"\"".toList (by decide)
  have hnone : the_value "\"\"".toList = none := by decide
  exact Option.some_ne_none value (hvalue.symm.trans hnone)

end SnappCollector.Collection
