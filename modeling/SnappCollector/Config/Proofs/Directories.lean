import Mathlib.Data.List.Infix
import SnappCollector.Config.Proofs.RrdFiles

/-!
# The recursion over directories

`recursive_dir_create` goes up from a path as long as `mkdir` misses a directory.  What it
makes on the way is one directory, the highest one missing; and it comes to an end where
`mkdir` gives another answer.
-/

namespace SnappCollector.Config

open CLib Collection Data

/-! ## Texts up to their last slash -/

theorem substr_before_last_append {c : Char} {before behind : CStr} (hc : c ∉ behind) :
    substr_before_last c (before ++ c :: behind) = before := by
  have hreverse : (before ++ c :: behind).reverse = behind.reverse ++ c :: before.reverse := by
    simp
  have hbehind : ∀ d ∈ behind.reverse, decide (d ≠ c) = true :=
    fun d hd => decide_eq_true fun heq => hc (heq ▸ List.mem_reverse.mp hd)
  rw [substr_before_last, if_pos (by simp), hreverse, List.dropWhile_append_of_pos hbehind,
    List.dropWhile_cons_of_neg (by simp), List.drop_one, List.tail_cons, List.reverse_reverse]

theorem substr_before_last_of_not_mem {c : Char} {s : CStr} (hc : c ∉ s) :
    substr_before_last c s = s := if_neg hc

theorem exists_last_of_mem {c : Char} {s : CStr} (hc : c ∈ s) :
    ∃ before behind, s = before ++ c :: behind ∧ c ∉ behind := by
  obtain ⟨behind, before, hsplit, hnone⟩ := List.eq_append_cons_of_mem (List.mem_reverse.mpr hc)
  refine ⟨before.reverse, behind.reverse, ?_, by simpa using hnone⟩
  rw [← List.reverse_reverse s, hsplit]
  simp

/-! ## A tree of directories -/

/-- The directories that are present, by their names from the root down. -/
structure Directories where
  present : List CStr → Bool
  root : present [] = true
  closed : ∀ {path : List CStr} {name : CStr}, present (path ++ [name]) = true →
    present path = true

def path_text (path : List CStr) : CStr := path.flatMap ('/' :: ·)

namespace Directories

def make (s : Directories) (path : List CStr) (h : s.present path.dropLast = true) :
    Directories where
  present p := s.present p || p = path
  root := by rw [s.root, Bool.true_or]
  closed := by
    intro p name hp
    rw [Bool.or_eq_true, decide_eq_true_eq] at hp ⊢
    rcases hp with hp | rfl
    · exact .inl (s.closed hp)
    · rw [List.dropLast_concat] at h
      exact .inl h

/-- A text that does not begin with a slash is not found; above an absolute path that is the
empty text. -/
def mkdir (text : CStr) (s : Directories) : Option Errno × Directories :=
  if text.head? = some '/' then
    if s.present (tokens '/' text) then (some .EEXIST, s)
    else if h : s.present (tokens '/' text).dropLast = true then
      (none, s.make (tokens '/' text) h)
    else (some .ENOENT, s)
  else (some .ENOENT, s)

variable {s : Directories} {path : List CStr}

theorem present_make {h : s.present path.dropLast = true} {p : List CStr} :
    (s.make path h).present p = true ↔ s.present p = true ∨ p = path := by
  show (s.present p || decide (p = path)) = true ↔ _
  rw [Bool.or_eq_true, decide_eq_true_eq]

theorem present_of_isPrefix {p : List CStr} (hp : p <+: path) (hpath : s.present path = true) :
    s.present p = true := by
  obtain ⟨rest, rfl⟩ := hp
  induction rest using List.reverseRecOn with
  | nil => rwa [List.append_nil] at hpath
  | append_singleton rest name ih =>
      rw [← List.append_assoc] at hpath
      exact ih (s.closed hpath)

def Named (path : List CStr) : Prop := ∀ name ∈ path, name ≠ [] ∧ '/' ∉ name

theorem tokens_path_text (hnamed : Named path) : tokens '/' (path_text path) = path := by
  cases path with
  | nil => exact tokens_nil
  | cons name path =>
      have htext : path_text (name :: path) = '/' :: joinWith '/' (name :: path) := by
        rw [joinWith_cons, path_text, List.flatMap_cons, List.flatMap_def]
        rfl
      rw [htext, tokens_delim_cons]
      exact tokens_joinWith (fun n hn => (hnamed n hn).1) fun n hn => (hnamed n hn).2

theorem substr_path_text {name : CStr} (hname : '/' ∉ name) :
    substr_before_last '/' (path_text (path ++ [name])) = path_text path := by
  rw [path_text, List.flatMap_append, List.flatMap_singleton]
  exact substr_before_last_append hname

theorem mkdir_path_text (hne : path ≠ []) (hnamed : Named path) :
    mkdir (path_text path) s =
      if s.present path then (some .EEXIST, s)
      else if h : s.present path.dropLast = true then (none, s.make path h)
      else (some .ENOENT, s) := by
  have hslash : (path_text path).head? = some '/' := by
    cases path with
    | nil => exact absurd rfl hne
    | cons name path => rfl
  unfold mkdir
  rw [if_pos hslash]
  simp only [tokens_path_text hnamed]

theorem exists_first_absent (habsent : s.present path ≠ true) :
    ∃ there name rest, path = there ++ name :: rest ∧ s.present there = true ∧
      s.present (there ++ [name]) ≠ true := by
  induction path using List.reverseRecOn with
  | nil => exact absurd s.root habsent
  | append_singleton path last ih =>
      by_cases hpath : s.present path = true
      · exact ⟨path, last, [], rfl, hpath, habsent⟩
      · obtain ⟨there, name, rest, rfl, hthere, hname⟩ := ih hpath
        exact ⟨there, name, rest ++ [last], by simp, hthere, hname⟩

/-- One directory is made: the first one that is missing.  It is the last of the path, or
the result is an error. -/
theorem recursive_dir_create_absent {there : List CStr} {name : CStr} {rest : List CStr}
    (hnamed : Named (there ++ name :: rest)) (hthere : s.present (there ++ [name]).dropLast = true)
    (habsent : s.present (there ++ [name]) ≠ true) (stack : Nat) (hstack : rest.length < stack) :
    recursive_dir_create mkdir stack (path_text (there ++ name :: rest)) s =
      .returned (if rest = [] then 0 else -1, s.make (there ++ [name]) hthere) := by
  induction rest using List.reverseRecOn generalizing stack with
  | nil =>
      obtain _ | stack := stack
      · exact absurd hstack (Nat.not_lt_zero _)
      · rw [recursive_dir_create, mkdir_path_text (by simp) hnamed, if_neg habsent,
          dif_pos hthere]
        rfl
  | append_singleton rest last ih =>
      obtain _ | stack := stack
      · exact absurd hstack (Nat.not_lt_zero _)
      · have hsplit : there ++ name :: (rest ++ [last]) = there ++ name :: rest ++ [last] := by simp
        rw [hsplit] at hnamed ⊢
        have habove : s.present (there ++ name :: rest) ≠ true := by
          intro hpresent
          refine habsent (present_of_isPrefix ?_ hpresent)
          exact ⟨rest, by simp⟩
        have hpath : s.present (there ++ name :: rest ++ [last]) ≠ true :=
          fun hpresent => habove (s.closed hpresent)
        have hlast : '/' ∉ last := (hnamed last (by simp)).2
        have hnamed' : Named (there ++ name :: rest) :=
          fun n hn => hnamed n (List.mem_append_left _ hn)
        have hup := ih hnamed' stack (by simpa using hstack)
        rw [recursive_dir_create, mkdir_path_text (by simp) hnamed, if_neg hpath,
          dif_neg (by rwa [List.dropLast_concat])]
        simp only [substr_path_text hlast, hup, Course.returned_bind]
        rw [if_neg (by simp)]
        rfl

/-- With enough stack, 0 is returned, and then the path and its ancestors are there besides
what was there before. -/
def CreatesDirectory (s : Directories) (path : List CStr) : Prop :=
  ∃ depth, ∀ stack ≥ depth, ∃ s', recursive_dir_create mkdir stack (path_text path) s =
    .returned (0, s') ∧ ∀ p, s'.present p = true ↔ s.present p = true ∨ p <+: path

/-- The directory is created exactly if its parent is there. -/
theorem creates_directory_iff (s : Directories) {path : List CStr} (hne : path ≠ [])
    (hnamed : Named path) : s.CreatesDirectory path ↔ s.present path.dropLast = true := by
  by_cases hpresent : s.present path = true
  · have hparent := present_of_isPrefix (List.dropLast_prefix path) hpresent
    refine iff_of_true ⟨1, fun stack hstack => ⟨s, ?_, fun p => ?_⟩⟩ hparent
    · obtain ⟨stack, rfl⟩ := Nat.exists_eq_add_of_le' hstack
      rw [recursive_dir_create, mkdir_path_text hne hnamed, if_pos hpresent]
    · exact ⟨.inl, fun hp => hp.elim id fun hp => present_of_isPrefix hp hpresent⟩
  · obtain ⟨there, name, rest, rfl, hthere, habsent⟩ := exists_first_absent hpresent
    have hparent : s.present (there ++ [name]).dropLast = true := by rwa [List.dropLast_concat]
    have hresult := recursive_dir_create_absent hnamed hparent habsent
    cases rest with
    | nil =>
        refine iff_of_true ⟨1, fun stack hstack => ?_⟩ hparent
        refine ⟨_, hresult stack hstack, fun p => ?_⟩
        rw [present_make, List.prefix_concat_iff]
        constructor
        · rintro (hp | rfl)
          · exact .inl hp
          · exact .inr (.inl rfl)
        · rintro (hp | rfl | hp)
          · exact .inl hp
          · exact .inr rfl
          · exact .inl (present_of_isPrefix hp hthere)
    | cons next rest =>
        refine iff_of_false ?_ ?_
        · rintro ⟨depth, hdepth⟩
          obtain ⟨s', hs', _⟩ := hdepth (depth + (next :: rest).length + 1) (by omega)
          rw [hresult _ (by omega)] at hs'
          cases hs'
        · rw [List.dropLast_append_cons, List.dropLast_cons_cons]
          refine fun hpath => habsent (present_of_isPrefix ?_ hpath)
          exact ⟨(next :: rest).dropLast, by simp⟩

def root_only : Directories where
  present path := path = []
  root := rfl
  closed h := absurd (of_decide_eq_true h) (List.append_ne_nil_of_right_ne_nil _ (by simp))

theorem creates_below_root : root_only.CreatesDirectory ["rrd".toList] :=
  (creates_directory_iff root_only (by decide) (by unfold Named; decide)).mpr rfl

theorem second_level_not_created :
    ¬∀ (s : Directories) (path : List CStr), path ≠ [] → Named path → s.CreatesDirectory path := by
  intro hall
  have hnamed : Named ["var".toList, "rrd".toList] := by unfold Named; decide
  obtain ⟨depth, hdepth⟩ := hall root_only ["var".toList, "rrd".toList] (by decide) hnamed
  obtain ⟨s', hs', _⟩ := hdepth (depth + 2) (by omega)
  have hresult := @recursive_dir_create_absent root_only [] "var".toList ["rrd".toList] hnamed rfl
    (by decide) (depth + 2) (by simp)
  cases hresult.symm.trans hs'

end Directories

/-! ## The end of the recursion -/

section

variable {σ : Type} {mkdir : CStr → σ → Option Errno × σ}

def way_up : Nat → CStr → CStr
  | 0, path => path
  | k + 1, path => way_up k (substr_before_last '/' path)

def after_calls (mkdir : CStr → σ → Option Errno × σ) : Nat → CStr → σ → σ
  | 0, _, s => s
  | k + 1, path, s => after_calls mkdir k (substr_before_last '/' path) (mkdir path s).2

def top (path : CStr) : CStr := path.takeWhile (· ≠ '/')

def again (mkdir : CStr → σ → Option Errno × σ) (text : CStr) (k : Nat) (s : σ) : σ :=
  (fun s => (mkdir text s).2)^[k] s

theorem missing_iff {k : Nat} {path : CStr} {s : σ} :
    Missing mkdir k path s ↔ ∀ i < k,
      (mkdir (way_up i path) (after_calls mkdir i path s)).1 = some .ENOENT := by
  induction k generalizing path s with
  | zero => exact iff_of_true trivial fun i hi => absurd hi (Nat.not_lt_zero i)
  | succ k ih =>
      rw [Missing, ih]
      constructor
      · rintro ⟨hfirst, hrest⟩ i hi
        cases i with
        | zero => exact hfirst
        | succ i => exact hrest i (Nat.lt_of_succ_lt_succ hi)
      · intro hall
        exact ⟨hall 0 (Nat.succ_pos k), fun i hi => hall (i + 1) (Nat.succ_lt_succ hi)⟩

theorem way_up_top {path : CStr} (hnone : '/' ∉ path) (k : Nat) : way_up k path = path := by
  induction k with
  | zero => rfl
  | succ k ih => rw [way_up, substr_before_last_of_not_mem hnone, ih]

theorem after_calls_top {path : CStr} (hnone : '/' ∉ path) (k : Nat) (s : σ) :
    after_calls mkdir k path s = again mkdir path k s := by
  induction k generalizing s with
  | zero => rfl
  | succ k ih => rw [after_calls, substr_before_last_of_not_mem hnone, ih]; rfl

theorem substr_of_slash {path : CStr} (hslash : '/' ∈ path) :
    path.count '/' = (substr_before_last '/' path).count '/' + 1 ∧
      top (substr_before_last '/' path) = top path := by
  obtain ⟨before, behind, rfl, hnone⟩ := exists_last_of_mem hslash
  rw [substr_before_last_append hnone]
  constructor
  · rw [List.count_append, List.count_cons_self, List.count_eq_zero_of_not_mem hnone]
  · unfold top
    rw [List.takeWhile_append]
    split
    · rename_i hwhole
      rw [List.takeWhile_cons_of_neg (by decide), List.append_nil]
      exact (List.takeWhile_prefix _).eq_of_length hwhole
    · rfl

/-- `mkdir` does not miss the directory of one of the texts that end in front of a slash, or
of the path itself; or it does not always miss the text in front of the first slash. -/
def Answered (mkdir : CStr → σ → Option Errno × σ) (path : CStr) (s : σ) : Prop :=
  (∃ k < path.count '/',
    (mkdir (way_up k path) (after_calls mkdir k path s)).1 ≠ some .ENOENT) ∨
  top path ≠ [] ∧ ∃ k, (mkdir (top path) (again mkdir (top path) k
    (after_calls mkdir (path.count '/') path s))).1 ≠ some .ENOENT

theorem exists_answer_iff (hempty : ∀ s, (mkdir [] s).1 = some .ENOENT) (path : CStr) (s : σ) :
    (∃ k, (mkdir (way_up k path) (after_calls mkdir k path s)).1 ≠ some .ENOENT) ↔
      Answered mkdir path s := by
  induction hcount : path.count '/' generalizing path s with
  | zero =>
      have hnone : '/' ∉ path := List.count_eq_zero.mp hcount
      have htop : top path = path :=
        List.takeWhile_eq_self_iff.mpr fun c hc => decide_eq_true fun heq => hnone (heq ▸ hc)
      unfold Answered
      simp only [way_up_top hnone, after_calls_top hnone, htop, hcount]
      constructor
      · rintro ⟨k, hk⟩
        refine .inr ⟨?_, k, hk⟩
        rintro rfl
        exact hk (hempty _)
      · rintro (⟨k, hk, _⟩ | ⟨_, k, hk⟩)
        · exact absurd hk (Nat.not_lt_zero k)
        · exact ⟨k, hk⟩
  | succ count ih =>
      have hslash : '/' ∈ path := List.count_pos_iff.mp (by omega)
      obtain ⟨hless, htop⟩ := substr_of_slash hslash
      have hrest := ih (substr_before_last '/' path) (mkdir path s).2 (by omega)
      unfold Answered at hrest ⊢
      rw [htop] at hrest
      rw [hless]
      constructor
      · rintro ⟨k, hk⟩
        cases k with
        | zero => exact .inl ⟨0, Nat.succ_pos _, hk⟩
        | succ k =>
            rcases hrest.mp ⟨k, hk⟩ with ⟨k, hlt, hk⟩ | hagain
            · exact .inl ⟨k + 1, Nat.succ_lt_succ hlt, hk⟩
            · exact .inr hagain
      · rintro (⟨k, hlt, hk⟩ | hagain)
        · exact ⟨k, hk⟩
        · obtain ⟨k, hk⟩ := hrest.mpr (.inr hagain)
          exact ⟨k + 1, hk⟩

/-- The recursion ends exactly if `mkdir` gives another answer than ENOENT on the way up. -/
theorem recursion_ends_iff (hempty : ∀ s, (mkdir [] s).1 = some .ENOENT) (path : CStr) (s : σ) :
    (∃ stack result, recursive_dir_create mkdir stack path s = .returned result) ↔
      Answered mkdir path s := by
  simp only [returns_recursive_dir_create, missing_iff, not_forall]
  rw [← exists_answer_iff hempty]
  constructor
  · rintro ⟨stack, k, _, hk⟩
    exact ⟨k, hk⟩
  · rintro ⟨k, hk⟩
    exact ⟨k + 1, k, Nat.lt_succ_self k, hk⟩

end

def all_exist (text : CStr) (s : Unit) : Option Errno × Unit :=
  (if text = [] then some .ENOENT else some .EEXIST, s)

theorem recursion_ends_at_directory :
    ∃ stack result, recursive_dir_create all_exist stack "/array/rrd".toList () =
      .returned result :=
  (recursion_ends_iff (fun _ => rfl) _ _).mpr (.inl ⟨0, by decide, by decide⟩)

/-- The directory of a file directly below the root is written as the empty text. -/
theorem endless_below_root :
    ¬∀ rrd_dir rrd_filename : CStr, ∃ stack result, recursive_dir_create all_exist stack
      (substr_before_last '/' (rrd_dir ++ rrd_filename)) () = .returned result := by
  intro hall
  obtain ⟨stack, hstack⟩ := hall "/".toList "x.rrd".toList
  have hpath : substr_before_last '/' ("/".toList ++ "x.rrd".toList) = [] := by decide
  rw [hpath, returns_recursive_dir_create, missing_iff] at hstack
  apply hstack
  intro i _
  rw [way_up_top List.not_mem_nil]
  rfl

end SnappCollector.Config
