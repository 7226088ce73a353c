import Mathlib.Algebra.Group.Nat.Defs
import Mathlib.Data.List.Basic

/-!
# C strings

A C string is the list of its characters before the terminating NUL; bytes are
characters with codes below 256.  The module holds the `<string.h>`,
`<ctype.h>` and `printf` pieces that the program calls, with the lemmas that
compute them on texts of a known shape.
-/

namespace SnappCollector.CLib

/-- The characters of a NUL-terminated string. -/
abbrev CStr := List Char

/-! ## Decimal numerals -/

def dec (n : Nat) : CStr := Nat.toDigits 10 n

theorem dec_injective : Function.Injective dec := by
  intro m n h
  have hofDigits := congrArg (Nat.ofDigitChars 10 · 0) h
  simpa only [dec, Nat.ofDigitChars_ten_toDigits] using hofDigits

theorem dec_ne_nil (n : Nat) : dec n ≠ [] := Nat.toDigits_ne_nil

theorem isDigit_of_mem_dec {n : Nat} {c : Char} (hc : c ∈ dec n) :
    c.isDigit = true :=
  Nat.isDigit_of_mem_toDigits (by decide) (by decide) hc

theorem not_mem_dec {c : Char} (hc : c.isDigit = false) (n : Nat) : c ∉ dec n := by
  intro hmem
  rw [isDigit_of_mem_dec hmem] at hc
  cases hc

theorem length_dec_le {n k : Nat} (hk : 0 < k) (hn : n < 10 ^ k) :
    (dec n).length ≤ k :=
  (Nat.length_toDigits_le_iff (by decide) hk).mpr hn

def dec_int (z : Int) : CStr := if z < 0 then '-' :: dec z.natAbs else dec z.natAbs

theorem not_mem_dec_int {c : Char} (hdigit : c.isDigit = false) (hminus : c ≠ '-') (z : Int) :
    c ∉ dec_int z := by
  unfold dec_int
  split
  · exact List.not_mem_cons_of_ne_of_not_mem hminus (not_mem_dec hdigit _)
  · exact not_mem_dec hdigit _

/-! ## Searching -/

def strstr : CStr → CStr → Option Nat
  | [], needle => if needle = [] then some 0 else none
  | c :: hay, needle =>
      if needle <+: c :: hay then some 0 else (strstr hay needle).map (· + 1)

theorem strstr_eq_none {hay needle : CStr} (h : ¬needle <:+: hay) :
    strstr hay needle = none := by
  induction hay with
  | nil =>
      have hne : needle ≠ [] := fun hnil => h (hnil ▸ List.nil_infix)
      simp [strstr, hne]
  | cons c hay ih =>
      have hpre : ¬needle <+: c :: hay := fun hp => h hp.isInfix
      have hrest : ¬needle <:+: hay := fun hi => h (hi.trans (List.suffix_cons c hay).isInfix)
      simp [strstr, hpre, ih hrest]

theorem strstr_isSome {hay needle : CStr} (h : needle <:+: hay) :
    (strstr hay needle).isSome = true := by
  induction hay with
  | nil =>
      have hnil : needle = [] := List.infix_nil.mp h
      simp [strstr, hnil]
  | cons c hay ih =>
      rcases List.infix_cons_iff.mp h with hpre | hrest
      · simp [strstr, hpre]
      · by_cases hpre : needle <+: c :: hay
        · simp [strstr, hpre]
        · simpa [strstr, hpre] using ih hrest

theorem strstr_ne_none_iff {hay needle : CStr} :
    strstr hay needle ≠ none ↔ needle <:+: hay := by
  constructor
  · intro h
    by_contra hinfix
    exact h (strstr_eq_none hinfix)
  · intro h
    exact Option.isSome_iff_ne_none.mp (strstr_isSome h)

theorem strstr_eq_zero_iff {hay needle : CStr} :
    strstr hay needle = some 0 ↔ needle <+: hay := by
  cases hay with
  | nil => simp [strstr]
  | cons c hay => simp [strstr]

theorem strstr_add_length_le {hay needle : CStr} {found : Nat}
    (h : strstr hay needle = some found) : found + needle.length ≤ hay.length := by
  induction hay generalizing found with
  | nil =>
      by_cases hnil : needle = []
      · simp only [strstr, hnil, if_true, Option.some.injEq] at h
        simp [hnil, ← h]
      · simp [strstr, hnil] at h
  | cons c hay ih =>
      by_cases hpre : needle <+: c :: hay
      · have hle := hpre.length_le
        simp only [strstr, hpre, if_true, Option.some.injEq] at h
        omega
      · simp only [strstr, hpre, if_false, Option.map_eq_some_iff] at h
        obtain ⟨found, hfound, rfl⟩ := h
        have hle := ih hfound
        rw [List.length_cons]
        omega

theorem strstr_append_right {hay needle : CStr} (h : needle <:+: hay) (rest : CStr) :
    strstr (hay ++ rest) needle = strstr hay needle := by
  induction hay with
  | nil =>
      have hnil : needle = [] := List.infix_nil.mp h
      cases rest <;> simp [strstr, hnil]
  | cons c hay ih =>
      by_cases hpre : needle <+: c :: hay
      · have hlong : needle <+: c :: (hay ++ rest) := hpre.trans ⟨rest, rfl⟩
        simp [strstr, hpre, hlong]
      · have hrest : needle <:+: hay := (List.infix_cons_iff.mp h).resolve_left hpre
        have hlong : ¬needle <+: c :: (hay ++ rest) := by
          intro hp
          have hle := hrest.length_le
          apply hpre
          exact List.prefix_of_prefix_length_le hp (List.prefix_append (c :: hay) rest)
            (by rw [List.length_cons]; omega)
        simp [strstr, hpre, hlong, ih hrest]

theorem strstr_singleton_append {c : Char} {pre : CStr} (rest : CStr)
    (hpre : c ∉ pre) : strstr (pre ++ c :: rest) [c] = some pre.length := by
  induction pre with
  | nil => simp [strstr]
  | cons d pre ih =>
      simp only [List.mem_cons, not_or] at hpre
      have hhead : ¬[c] <+: d :: (pre ++ c :: rest) := by
        simpa [List.cons_prefix_cons] using hpre.1
      simp [strstr, hhead, ih hpre.2]

/-- `s.substr(0,s.rfind(c))`: all of it if there is no `c`. -/
def substr_before_last (c : Char) (s : CStr) : CStr :=
  if c ∈ s then ((s.reverse.dropWhile (· ≠ c)).drop 1).reverse else s

/-! ## Ignoring case -/

def lower (s : CStr) : CStr := s.map Char.toLower

@[simp] theorem length_lower (s : CStr) : (lower s).length = s.length := List.length_map _

def strcasestr (hay needle : CStr) : Option Nat := strstr (lower hay) (lower needle)

/-- Whether `strcasecmp` gives 0. -/
def strcaseeq (s t : CStr) : Bool := lower s = lower t

theorem strcasestr_eq_zero_iff {hay needle : CStr} :
    strcasestr hay needle = some 0 ↔ lower needle <+: lower hay := strstr_eq_zero_iff

/-! ## Copying into fixed buffers -/

/-- The text in a buffer after `strncpy(dst, src, n)`.  A text of `n` characters
or more gets no terminating NUL: what follows in memory, `stack`, belongs to it. -/
def strncpy (stack src : CStr) (n : Nat) : CStr :=
  if src.length < n then src else src.take n ++ stack

def strncat (dst src : CStr) (n : Nat) : CStr := dst ++ src.take n

@[simp] theorem strncpy_of_lt {src : CStr} {n : Nat} (stack : CStr)
    (h : src.length < n) : strncpy stack src n = src := by
  simp [strncpy, h]

theorem strncpy_eq_iff {src dst : CStr} {n : Nat} (stack : CStr) (h : dst.length < n) :
    strncpy stack src n = dst ↔ src = dst := by
  constructor
  · intro hcopy
    by_cases hshort : src.length < n
    · rwa [strncpy_of_lt stack hshort] at hcopy
    · rw [← hcopy, strncpy, if_neg hshort, List.length_append, List.length_take] at h
      omega
  · rintro rfl
    exact strncpy_of_lt stack h

@[simp] theorem strncat_of_le {src : CStr} {n : Nat} (dst : CStr)
    (h : src.length ≤ n) : strncat dst src n = dst ++ src := by
  simp [strncat, List.take_of_length_le h]

/-! ## Joining -/

/-- `a₁ ++ sep ++ a₂ ++ sep ++ …`, the text that `append` calls in a loop build. -/
def joinWith (sep : Char) (words : List CStr) : CStr := [sep].intercalate words

@[simp] theorem joinWith_singleton (sep : Char) (w : CStr) : joinWith sep [w] = w := by
  simp [joinWith]

theorem joinWith_cons_cons (sep : Char) (w v : CStr) (ws : List CStr) :
    joinWith sep (w :: v :: ws) = w ++ sep :: joinWith sep (v :: ws) := by
  simp [joinWith, List.intercalate_cons_cons]

theorem joinWith_cons (sep : Char) (w : CStr) (ws : List CStr) :
    joinWith sep (w :: ws) = w ++ (ws.map (sep :: ·)).flatten := by
  induction ws generalizing w with
  | nil => simp
  | cons v ws ih => rw [joinWith_cons_cons, ih, List.map_cons, List.flatten_cons, List.cons_append]

theorem length_joinWith_le (sep : Char) {words : List CStr} {b : Nat}
    (hb : ∀ w ∈ words, w.length ≤ b) :
    (joinWith sep words).length ≤ words.length * (b + 1) := by
  induction words with
  | nil => simp [joinWith]
  | cons w words ih =>
      have hw : w.length ≤ b := hb w (by simp)
      have hrest := ih fun v hv => hb v (by simp [hv])
      cases words with
      | nil => simp; omega
      | cons v words =>
          rw [joinWith_cons_cons, List.length_append, List.length_cons]
          rw [List.length_cons] at hrest ⊢
          rw [List.length_cons, Nat.succ_mul]
          omega

end SnappCollector.CLib
