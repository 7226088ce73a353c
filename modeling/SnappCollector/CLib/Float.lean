import Mathlib.Data.Rat.Floor
import SnappCollector.CLib.Text

/-!
# Floating-point values

The values of `double` and `long double` as exact rationals with infinities and
NaN.  Rounding plays no part where the program uses them: the sums it forms and
the numerals it reads are integers within the mantissa.
-/

namespace SnappCollector.CLib

inductive CFloat where
  | nan
  | inf (negative : Bool)
  | fin (value : ℚ)
deriving DecidableEq

def CFloat.isnan : CFloat → Bool
  | .nan => true
  | _ => false

def trunc (q : ℚ) : ℤ := if 0 ≤ q then ⌊q⌋ else ⌈q⌉

/-- `(unsigned long long) x`.  C leaves the result open when the integer part
does not fit; `undef` is what the platform gives there. -/
def CFloat.toULL (undef : CFloat → UInt64) : CFloat → UInt64
  | .fin q =>
      if 0 ≤ trunc q ∧ trunc q < 2 ^ 64 then UInt64.ofNat (trunc q).toNat
      else undef (.fin q)
  | x => undef x

/-- What the program gets from the C library and the platform about numbers. -/
structure Libc where
  strtold : CStr → CFloat
  /-- `(unsigned long long) x` where C leaves it open -/
  ullUndefined : CFloat → UInt64

def CFloat.ofNat (n : Nat) : CFloat := .fin n

@[simp] theorem CFloat.isnan_ofNat (n : Nat) : (CFloat.ofNat n).isnan = false := rfl

theorem trunc_natCast (n : Nat) : trunc n = n := by
  rw [trunc, if_pos (Nat.cast_nonneg n)]
  exact Int.floor_natCast n

theorem CFloat.toNat_toULL_ofNat (undef : CFloat → UInt64) {n : Nat} (hn : n < 2 ^ 64) :
    ((CFloat.ofNat n).toULL undef).toNat = n := by
  have hfits : (0 : ℤ) ≤ n ∧ (n : ℤ) < 2 ^ 64 := by omega
  rw [CFloat.ofNat, CFloat.toULL, trunc_natCast, if_pos hfits, Int.toNat_natCast]
  exact UInt64.toNat_ofNat_of_lt hn

def decimalLibc : Libc where
  strtold s :=
    if s = "NAN".toList then .nan
    else if s.all Char.isDigit then .ofNat (Nat.ofDigitChars 10 s 0)
    else .ofNat 0
  ullUndefined _ := 0

theorem strtold_decimalLibc_dec (n : Nat) : decimalLibc.strtold (dec n) = .ofNat n := by
  have hdigits : (dec n).all Char.isDigit = true :=
    List.all_eq_true.mpr fun c hc => isDigit_of_mem_dec hc
  have hnan : dec n ≠ "NAN".toList := by
    intro heq
    rw [heq] at hdigits
    exact absurd hdigits (by decide)
  simp only [decimalLibc, if_neg hnan, if_pos hdigits]
  rw [dec, Nat.ofDigitChars_ten_toDigits]

/-- `strtold` with a mantissa of 64 bits. -/
structure Mantissa64 (libc : Libc) : Prop where
  exact : ∀ n < 2 ^ 64, libc.strtold (dec n) = .ofNat n
  nan : libc.strtold "NAN".toList = .nan

theorem strtold_decimalLibc_nan : decimalLibc.strtold "NAN".toList = .nan := rfl

theorem mantissa64_decimalLibc : Mantissa64 decimalLibc where
  exact n _ := strtold_decimalLibc_dec n
  nan := strtold_decimalLibc_nan

theorem CFloat.toNat_toULL_intCast (undef : CFloat → UInt64) {z : ℤ} (hz : 0 ≤ z)
    (hlt : z < 2 ^ 64) : ((CFloat.fin z).toULL undef).toNat = z.toNat := by
  obtain ⟨n, rfl⟩ := Int.eq_ofNat_of_zero_le hz
  exact CFloat.toNat_toULL_ofNat undef (by omega)

end SnappCollector.CLib
