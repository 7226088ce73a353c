import Mathlib.Algebra.Group.Int.Defs
import Mathlib.Data.List.TakeWhile
import SnappCollector.CLib.Text

/-!
# Integer conversion

`atoi` as the C library computes it on a 64-bit platform: through `strtol`, whose
result stays within `long`, and a conversion to `int`.
-/

namespace SnappCollector.CLib

def isspace (c : Char) : Bool := c.toNat = 32 || (9 ≤ c.toNat && c.toNat ≤ 13)

/-- `strtol(s, NULL, 10)`. -/
def strtol (s : CStr) : Int :=
  let s := s.dropWhile isspace
  let (negative, s) :=
    match s with
    | '-' :: s => (true, s)
    | '+' :: s => (false, s)
    | s => (false, s)
  let magnitude : Int := (Nat.ofDigitChars 10 (s.takeWhile Char.isDigit) 0 : Nat)
  if negative then max (-2 ^ 63) (-magnitude) else min (2 ^ 63 - 1) magnitude

def atoi (s : CStr) : Int32 := Int32.ofInt (strtol s)

theorem code_of_isDigit {c : Char} (h : c.isDigit = true) : 48 ≤ c.toNat ∧ c.toNat ≤ 57 := by
  simpa [Char.isDigit, UInt32.le_iff_toNat_le] using h

theorem not_isspace_of_isDigit {c : Char} (h : c.isDigit = true) : isspace c = false := by
  have hcode := code_of_isDigit h
  simp only [isspace, Bool.or_eq_false_iff, Bool.and_eq_false_iff, decide_eq_false_iff_not]
  omega

/-! ## Numerals -/

section Numeral

variable {leading digits rest : CStr}

theorem dropWhile_isspace (hleading : ∀ c ∈ leading, isspace c = true) {c : Char}
    (hc : isspace c = false) : (leading ++ c :: rest).dropWhile isspace = c :: rest := by
  rw [List.dropWhile_append_of_pos hleading, List.dropWhile_cons_of_neg (by simp [hc])]

theorem takeWhile_digits (hdigits : ∀ c ∈ digits, c.isDigit = true)
    (hrest : ∀ c ∈ rest, c.isDigit = false) :
    (digits ++ rest).takeWhile Char.isDigit = digits := by
  rw [List.takeWhile_append_of_pos hdigits]
  cases rest with
  | nil => rw [List.takeWhile_nil, List.append_nil]
  | cons c rest =>
      rw [List.takeWhile_cons_of_neg (by simp [hrest c (List.mem_cons_self ..)]), List.append_nil]

variable (hleading : ∀ c ∈ leading, isspace c = true) (hdigits : ∀ c ∈ digits, c.isDigit = true)
  (hrest : ∀ c ∈ rest, c.isDigit = false)

include hleading hdigits hrest

theorem strtol_digits (hne : digits ≠ []) :
    strtol (leading ++ (digits ++ rest)) =
      min (2 ^ 63 - 1) ((Nat.ofDigitChars 10 digits 0 : Nat) : Int) := by
  obtain ⟨c, more, hcons⟩ := List.exists_cons_of_ne_nil hne
  have hc : c.isDigit = true := hdigits c (by simp [hcons])
  have hcode := code_of_isDigit hc
  have hminus : c ≠ '-' := fun h => by simp [h] at hcode
  have hplus : c ≠ '+' := fun h => by simp [h] at hcode
  have hskip : (leading ++ (digits ++ rest)).dropWhile isspace = digits ++ rest := by
    rw [hcons, List.cons_append, dropWhile_isspace hleading (not_isspace_of_isDigit hc)]
  have hunsigned : strtol (leading ++ (digits ++ rest)) =
      min (2 ^ 63 - 1)
        ((Nat.ofDigitChars 10 ((digits ++ rest).takeWhile Char.isDigit) 0 : Nat) : Int) := by
    unfold strtol
    rw [hskip, hcons, List.cons_append]
    simp [hminus, hplus]
  rw [hunsigned, takeWhile_digits hdigits hrest]

theorem strtol_plus :
    strtol (leading ++ '+' :: (digits ++ rest)) =
      min (2 ^ 63 - 1) ((Nat.ofDigitChars 10 digits 0 : Nat) : Int) := by
  unfold strtol
  rw [dropWhile_isspace hleading (by decide)]
  show min (2 ^ 63 - 1)
    ((Nat.ofDigitChars 10 ((digits ++ rest).takeWhile Char.isDigit) 0 : Nat) : Int) = _
  rw [takeWhile_digits hdigits hrest]

theorem strtol_minus :
    strtol (leading ++ '-' :: (digits ++ rest)) =
      max (-2 ^ 63) (-((Nat.ofDigitChars 10 digits 0 : Nat) : Int)) := by
  unfold strtol
  rw [dropWhile_isspace hleading (by decide)]
  show max (-2 ^ 63)
    (-((Nat.ofDigitChars 10 ((digits ++ rest).takeWhile Char.isDigit) 0 : Nat) : Int)) = _
  rw [takeWhile_digits hdigits hrest]

end Numeral

theorem strtol_dec (n : Nat) (hn : n < 2 ^ 63) : strtol (dec n) = n := by
  have hdigits : ∀ c ∈ dec n, c.isDigit = true := fun c hc => isDigit_of_mem_dec hc
  have hnumeral := @strtol_digits [] (dec n) [] nofun hdigits nofun (dec_ne_nil n)
  rw [List.nil_append, List.append_nil, dec, Nat.ofDigitChars_ten_toDigits] at hnumeral
  rw [dec, hnumeral]
  omega

theorem toUInt32_atoi_dec {n : Nat} (hn : n < 2 ^ 32) :
    (atoi (dec n)).toUInt32 = UInt32.ofNat n := by
  rw [atoi, strtol_dec n (by omega), Int32.ofInt_eq_ofNat, Int32.toUInt32_ofNat']

end SnappCollector.CLib
