import SnappCollector.CLib.Text
import Mathlib.Algebra.GroupWithZero.Nat
import Mathlib.Data.List.TakeDrop
import Mathlib.Data.List.TakeWhile

/-!
# The tokenizer

`strtok_r` with a one-character delimiter, as a function from the text at the
save pointer to the token and the text at the new save pointer: a call only
overwrites the delimiter that ends its token and never looks at it again.
Repeated calls read `tokens`, the nonempty pieces between delimiters.  Where each word was
cut off together with its delimiter, they may read fewer words than there were.
-/

namespace SnappCollector.CLib

/-- `strtok_r(str, delim, &saveptr)`: the next token and the text left to scan. -/
def strtok_r (delim : Char) (str : CStr) : Option (CStr × CStr) :=
  match str.dropWhile (· == delim) with
  | [] => none
  | c :: rest =>
      some ((c :: rest).takeWhile (· != delim),
        ((c :: rest).dropWhile (· != delim)).drop 1)

variable {delim : Char}

theorem strtok_r_replicate_append (n : Nat) (str : CStr) :
    strtok_r delim (List.replicate n delim ++ str) = strtok_r delim str := by
  have hskip : (List.replicate n delim ++ str).dropWhile (· == delim) =
      str.dropWhile (· == delim) := by
    apply List.dropWhile_append_of_pos
    intro c hc
    simp [List.eq_of_mem_replicate hc]
  rw [strtok_r, hskip, strtok_r]

theorem strtok_r_replicate (n : Nat) : strtok_r delim (List.replicate n delim) = none := by
  rw [← List.append_nil (List.replicate n delim), strtok_r_replicate_append]
  rfl

theorem strtok_r_word_delim {w : CStr} (hne : w ≠ []) (hw : delim ∉ w)
    (rest : CStr) : strtok_r delim (w ++ delim :: rest) = some (w, rest) := by
  have hall : ∀ c ∈ w, (c != delim) = true := fun c hc => by
    simpa using fun heq : c = delim => hw (heq ▸ hc)
  obtain ⟨c, w', rfl⟩ := List.exists_cons_of_ne_nil hne
  have hc : c ≠ delim := by simpa using hall c (by simp)
  have hskip : ((c :: w') ++ delim :: rest).dropWhile (· == delim) =
      c :: (w' ++ delim :: rest) := by
    simp [hc]
  have htake : (c :: w' ++ delim :: rest).takeWhile (· != delim) =
      c :: w' ++ (delim :: rest).takeWhile (· != delim) := List.takeWhile_append_of_pos hall
  have hdrop : (c :: w' ++ delim :: rest).dropWhile (· != delim) =
      (delim :: rest).dropWhile (· != delim) := List.dropWhile_append_of_pos hall
  simp only [List.cons_append] at htake hdrop
  rw [strtok_r, hskip]
  simp only [htake, hdrop]
  simp

theorem strtok_r_word {w : CStr} (hne : w ≠ []) (hw : delim ∉ w) :
    strtok_r delim w = some (w, []) := by
  have hall : ∀ c ∈ w, (c != delim) = true := fun c hc => by
    simpa using fun heq : c = delim => hw (heq ▸ hc)
  obtain ⟨c, w', rfl⟩ := List.exists_cons_of_ne_nil hne
  have hc : c ≠ delim := by simpa using hall c (by simp)
  have htake : (c :: w').takeWhile (· != delim) = c :: w' := List.takeWhile_eq_self_iff.mpr hall
  have hdrop : (c :: w').dropWhile (· != delim) = [] := List.dropWhile_eq_nil_iff.mpr hall
  rw [strtok_r, List.dropWhile_cons_of_neg (by simpa using hc)]
  simp only [htake, hdrop, List.drop_nil]

inductive Scanned (delim : Char) : CStr → CStr → CStr → Prop where
  | last (n : Nat) {w : CStr} (hne : w ≠ []) (hw : delim ∉ w) :
      Scanned delim (List.replicate n delim ++ w) w []
  | word (n : Nat) {w : CStr} (hne : w ≠ []) (hw : delim ∉ w) (rest : CStr) :
      Scanned delim (List.replicate n delim ++ (w ++ delim :: rest)) w rest

theorem Scanned.strtok_r_eq {str token saveptr : CStr} (h : Scanned delim str token saveptr) :
    strtok_r delim str = some (token, saveptr) := by
  cases h with
  | last n hne hw => rw [strtok_r_replicate_append, strtok_r_word hne hw]
  | word n hne hw rest => rw [strtok_r_replicate_append, strtok_r_word_delim hne hw]

theorem replicate_or_scanned (delim : Char) (str : CStr) :
    (∃ n, str = List.replicate n delim) ∨ ∃ token saveptr, Scanned delim str token saveptr := by
  induction str with
  | nil => exact .inl ⟨0, rfl⟩
  | cons c str ih =>
      by_cases hc : c = delim
      · subst hc
        rcases ih with ⟨n, rfl⟩ | ⟨token, saveptr, h⟩
        · exact .inl ⟨n + 1, rfl⟩
        · right
          cases h with
          | last n hne hw => exact ⟨_, _, .last (n + 1) hne hw⟩
          | word n hne hw _ => exact ⟨_, _, .word (n + 1) hne hw _⟩
      · right
        by_cases hmem : delim ∈ str
        · obtain ⟨w, rest, rfl, hw⟩ := List.eq_append_cons_of_mem hmem
          exact ⟨_, _, .word 0 (w := c :: w) (by simp) (by simp [hw, Ne.symm hc]) rest⟩
        · exact ⟨_, _, .last 0 (w := c :: str) (by simp) (by simp [hmem, Ne.symm hc])⟩

theorem strtok_r_eq_some_iff {str token saveptr : CStr} :
    strtok_r delim str = some (token, saveptr) ↔ Scanned delim str token saveptr := by
  constructor
  · intro h
    rcases replicate_or_scanned delim str with ⟨n, rfl⟩ | ⟨token', saveptr', hscan⟩
    · rw [strtok_r_replicate] at h
      cases h
    · rw [hscan.strtok_r_eq] at h
      cases h
      exact hscan
  · exact Scanned.strtok_r_eq

/-- The nonempty pieces of a text between delimiters. -/
def tokens (delim : Char) (str : CStr) : List CStr :=
  (str.splitOn delim).filter (· ≠ [])

theorem tokens_nil : tokens delim [] = [] := by
  simp [tokens]

theorem tokens_delim_cons (str : CStr) : tokens delim (delim :: str) = tokens delim str := by
  have hsplit := List.splitOn_append_cons_self (a := delim) ([] : CStr) str
  simp only [List.nil_append, List.splitOn_nil, List.singleton_append] at hsplit
  simp [tokens, hsplit]

theorem tokens_word {w : CStr} (hne : w ≠ []) (hw : delim ∉ w) :
    tokens delim w = [w] := by
  simp [tokens, List.splitOn_eq_singleton hw, hne]

theorem tokens_word_delim {w : CStr} (hne : w ≠ []) (hw : delim ∉ w) (rest : CStr) :
    tokens delim (w ++ delim :: rest) = w :: tokens delim rest := by
  simp [tokens, List.splitOn_append_cons_self_of_not_mem hw, hne]

theorem tokens_replicate_append (n : Nat) (str : CStr) :
    tokens delim (List.replicate n delim ++ str) = tokens delim str := by
  induction n with
  | zero => simp
  | succ n ih => rw [List.replicate_succ, List.cons_append, tokens_delim_cons, ih]

theorem tokens_replicate (n : Nat) : tokens delim (List.replicate n delim) = [] := by
  rw [← List.append_nil (List.replicate n delim), tokens_replicate_append, tokens_nil]

theorem tokens_of_strtok_r {str token saveptr : CStr}
    (h : strtok_r delim str = some (token, saveptr)) :
    tokens delim str = token :: tokens delim saveptr := by
  cases strtok_r_eq_some_iff.mp h with
  | last n hne hw => rw [tokens_replicate_append, tokens_word hne hw, tokens_nil]
  | word n hne hw _ => rw [tokens_replicate_append, tokens_word_delim hne hw]

theorem strtok_r_eq_none_iff {str : CStr} :
    strtok_r delim str = none ↔ tokens delim str = [] := by
  rcases replicate_or_scanned delim str with ⟨n, rfl⟩ | ⟨token, saveptr, hscan⟩
  · rw [strtok_r_replicate, tokens_replicate]
    exact iff_of_true rfl rfl
  · have htoken := hscan.strtok_r_eq
    rw [htoken, tokens_of_strtok_r htoken]
    exact iff_of_false (by simp) (by simp)

theorem Scanned.length_lt {str token saveptr : CStr} (h : Scanned delim str token saveptr) :
    saveptr.length < str.length := by
  cases h with
  | last n hne hw =>
      have hpos := List.length_pos_iff.mpr hne
      rw [List.length_append, List.length_nil]
      omega
  | word n hne hw _ =>
      rw [List.length_append, List.length_append, List.length_cons]
      omega

/-- The rule for repeated calls: what holds of a text without tokens and goes back from the
text behind a token to the text before it, holds of every text. -/
theorem scan_induction {motive : CStr → Prop} (delim : Char)
    (empty : ∀ n, motive (List.replicate n delim))
    (scan : ∀ str token saveptr, Scanned delim str token saveptr → motive saveptr → motive str)
    (str : CStr) : motive str := by
  induction hlength : str.length using Nat.strong_induction_on generalizing str with
  | h length ih =>
      subst hlength
      rcases replicate_or_scanned delim str with ⟨n, rfl⟩ | ⟨token, saveptr, hscan⟩
      · exact empty n
      · exact scan str token saveptr hscan (ih saveptr.length hscan.length_lt saveptr rfl)

theorem word_of_mem_tokens {str token : CStr} (h : token ∈ tokens delim str) :
    token ≠ [] ∧ delim ∉ token := by
  induction str using scan_induction delim with
  | empty n => simp [tokens_replicate] at h
  | scan str first saveptr hscan ih =>
      rw [tokens_of_strtok_r hscan.strtok_r_eq] at h
      rcases List.mem_cons.mp h with rfl | hrest
      · cases hscan with
        | last n hne hw => exact ⟨hne, hw⟩
        | word n hne hw _ => exact ⟨hne, hw⟩
      · exact ih hrest

theorem tokens_joinWith {words : List CStr} (hne : ∀ w ∈ words, w ≠ [])
    (hdelim : ∀ w ∈ words, delim ∉ w) : tokens delim (joinWith delim words) = words := by
  cases words with
  | nil => simp [joinWith, tokens_nil]
  | cons w words =>
      rw [tokens, joinWith, List.splitOn_intercalate delim hdelim (by simp)]
      exact List.filter_eq_self.mpr fun v hv => by simpa using hne v hv

/-- Tokenizing undoes joining exactly when no word is empty or holds the delimiter. -/
theorem tokens_joinWith_iff {words : List CStr} :
    tokens delim (joinWith delim words) = words ↔ ∀ w ∈ words, w ≠ [] ∧ delim ∉ w := by
  constructor
  · intro h w hw
    rw [← h] at hw
    exact word_of_mem_tokens hw
  · intro h
    exact tokens_joinWith (fun w hw => (h w hw).1) fun w hw => (h w hw).2

/-! ## Words that are cut off -/

/-- The words, each with a delimiter, as far as `n` characters reach. -/
def cut_words (delim : Char) (n : Nat) (words : List CStr) : CStr :=
  words.flatMap fun w => (w ++ [delim]).take n

theorem cut_word_of_lt {n : Nat} {w : CStr} (hw : w.length < n) :
    (w ++ [delim]).take n = w ++ [delim] :=
  List.take_of_length_le (by rw [List.length_append]; exact hw)

theorem cut_word_of_le {n : Nat} {w : CStr} (hw : n ≤ w.length) :
    (w ++ [delim]).take n = w.take n :=
  List.take_append_of_le_length hw

theorem length_tokens_append {before : CStr} (hbefore : delim ∉ before) {c : Char} (hc : c ≠ delim)
    (text : CStr) :
    (tokens delim (before ++ c :: text)).length = (tokens delim (c :: text)).length := by
  by_cases hmem : delim ∈ text
  · obtain ⟨w, rest, rfl, hw⟩ := List.eq_append_cons_of_mem hmem
    have hword : delim ∉ c :: w := List.not_mem_cons_of_ne_of_not_mem (Ne.symm hc) hw
    have hlong : delim ∉ before ++ c :: w := by
      rw [List.mem_append, not_or]
      exact ⟨hbefore, hword⟩
    have hshort : c :: (w ++ delim :: rest) = c :: w ++ delim :: rest := rfl
    rw [hshort, ← List.append_assoc, tokens_word_delim (by simp) hlong,
      tokens_word_delim (by simp) hword]
    rfl
  · have hword : delim ∉ c :: text := List.not_mem_cons_of_ne_of_not_mem (Ne.symm hc) hmem
    have hlong : delim ∉ before ++ c :: text := by
      rw [List.mem_append, not_or]
      exact ⟨hbefore, hword⟩
    rw [tokens_word (by simp) hlong, tokens_word (by simp) hword]
    rfl

theorem length_tokens_of_not_mem_le {text : CStr} (h : delim ∉ text) :
    (tokens delim text).length ≤ 1 := by
  by_cases hne : text = []
  · rw [hne, tokens_nil]
    exact Nat.zero_le 1
  · rw [tokens_word hne h]
    rfl

section

variable {n : Nat} {words : List CStr}

theorem cut_words_cons (w : CStr) (words : List CStr) :
    cut_words delim n (w :: words) = (w ++ [delim]).take n ++ cut_words delim n words :=
  List.flatMap_cons ..

theorem length_cut_words (delim : Char) (n : Nat) (words : List CStr) :
    (cut_words delim n words).length = (words.map fun w => min (w.length + 1) n).sum := by
  induction words with
  | nil => rfl
  | cons w words ih =>
      rw [cut_words_cons, List.length_append, ih, List.length_take, List.length_append,
        List.map_cons, List.sum_cons, Nat.min_comm]
      rfl

theorem cut_words_head (hn : 0 < n) {w : CStr} (hne : w ≠ []) (hw : delim ∉ w)
    (words : List CStr) : ∃ c text, cut_words delim n (w :: words) = c :: text ∧ c ≠ delim := by
  obtain ⟨n, rfl⟩ := Nat.exists_eq_add_of_le' hn
  obtain ⟨c, w, rfl⟩ := List.exists_cons_of_ne_nil hne
  rw [cut_words_cons]
  exact ⟨c, _, rfl, fun heq => hw (heq ▸ List.mem_cons_self ..)⟩

/-- A word that loses its delimiter runs into the next one. -/
theorem length_tokens_cut_words_of_le (hn : 0 < n) {w v : CStr} (hle : n ≤ w.length)
    (hw : delim ∉ w) (hv : v ≠ [] ∧ delim ∉ v) (words : List CStr) :
    (tokens delim (cut_words delim n (w :: v :: words))).length =
      (tokens delim (cut_words delim n (v :: words))).length := by
  have hcut : delim ∉ w.take n := fun hmem => hw (List.mem_of_mem_take hmem)
  obtain ⟨c, text, htext, hc⟩ := cut_words_head hn hv.1 hv.2 words
  rw [cut_words_cons, cut_word_of_le hle, htext, length_tokens_append hcut hc]

theorem tokens_cut_word_iff (hn : 0 < n) {w : CStr} (hne : w ≠ []) (hw : delim ∉ w) :
    tokens delim (cut_words delim n [w]) = [w] ↔ w.length ≤ n := by
  rw [cut_words_cons, cut_words, List.flatMap_nil, List.append_nil]
  by_cases hlt : w.length < n
  · rw [cut_word_of_lt hlt, tokens_word_delim hne hw, tokens_nil]
    exact iff_of_true rfl (Nat.le_of_lt hlt)
  · have hcut : delim ∉ w.take n := fun hmem => hw (List.mem_of_mem_take hmem)
    have hnonempty : w.take n ≠ [] := by
      rw [ne_eq, List.take_eq_nil_iff, not_or]
      exact ⟨Nat.ne_of_gt hn, hne⟩
    rw [cut_word_of_le (Nat.le_of_not_lt hlt), tokens_word hnonempty hcut, List.cons.injEq,
      List.take_eq_self_iff]
    exact and_iff_left rfl

/-- Cutting loses delimiters: there are never more words than before. -/
theorem length_tokens_cut_words_le (hn : 0 < n) (hwords : ∀ w ∈ words, w ≠ [] ∧ delim ∉ w) :
    (tokens delim (cut_words delim n words)).length ≤ words.length := by
  induction words with
  | nil => rw [cut_words, List.flatMap_nil, tokens_nil]
  | cons w words ih =>
      obtain ⟨hne, hw⟩ := hwords w (List.mem_cons_self ..)
      have hrest := ih fun v hv => hwords v (List.mem_cons_of_mem _ hv)
      by_cases hlt : w.length < n
      · rw [cut_words_cons, cut_word_of_lt hlt, List.append_assoc, List.singleton_append,
          tokens_word_delim hne hw]
        exact Nat.succ_le_succ hrest
      · have hle : n ≤ w.length := Nat.le_of_not_lt hlt
        cases words with
        | nil =>
            rw [cut_words_cons, cut_word_of_le hle, cut_words, List.flatMap_nil, List.append_nil]
            exact length_tokens_of_not_mem_le fun hmem => hw (List.mem_of_mem_take hmem)
        | cons v words =>
            rw [length_tokens_cut_words_of_le hn hle hw (hwords v (by simp))]
            exact Nat.le_succ_of_le hrest

/-- The words come back exactly if each has room for its delimiter, or is the last and has
room for itself. -/
theorem tokens_cut_words_iff (hn : 0 < n) (hwords : ∀ w ∈ words, w ≠ [] ∧ delim ∉ w) :
    tokens delim (cut_words delim n words) = words ↔
      (∀ w ∈ words.dropLast, w.length < n) ∧ ∀ w ∈ words.getLast?, w.length ≤ n := by
  induction words with
  | nil => simp [cut_words, tokens_nil]
  | cons w words ih =>
      obtain ⟨hne, hw⟩ := hwords w (List.mem_cons_self ..)
      have hrest : ∀ v ∈ words, v ≠ [] ∧ delim ∉ v :=
        fun v hv => hwords v (List.mem_cons_of_mem _ hv)
      cases words with
      | nil =>
          rw [tokens_cut_word_iff hn hne hw]
          simp
      | cons v words =>
          rw [List.dropLast_cons_cons, List.forall_mem_cons, List.getLast?_cons_cons]
          by_cases hlt : w.length < n
          · rw [cut_words_cons, cut_word_of_lt hlt, List.append_assoc, List.singleton_append,
              tokens_word_delim hne hw, List.cons.injEq, ih hrest, and_assoc]
            simp only [hlt, true_and]
          · -- the delimiter is lost, and with it a word
            refine iff_of_false (fun heq => ?_) fun h => hlt h.1.1
            have hfew := length_tokens_cut_words_le hn hrest
            have hmany := congrArg List.length heq
            rw [length_tokens_cut_words_of_le hn (Nat.le_of_not_lt hlt) hw (hwords v (by simp))]
              at hmany
            simp only [List.length_cons] at hfew hmany
            omega

end

end SnappCollector.CLib
