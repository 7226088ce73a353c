import Mathlib.Data.List.Chain
import Mathlib.Data.List.TakeWhile

/-!
# Streams in pieces

A stream of elements some of which end lines, and the pieces that it arrives in.  If
every line starts a piece and lies in it whole, then the first lines of the pieces are
the lines of the stream, however the line ends are cut.
-/

namespace SnappCollector.Data

variable {α : Type*} (isEnd : α → Bool)

def lines (stream : List α) : List (List α) :=
  (stream.splitOnP isEnd).filter fun line => !line.isEmpty

/-- What a piece holds up to its first line end. -/
def first_line (piece : List α) : List α := piece.takeWhile fun x => !isEnd x

/-- Nothing but line ends follows on the first line of a piece, and what follows on a
piece without a line end is one. -/
structure LineAligned (pieces : List (List α)) : Prop where
  whole : ∀ piece ∈ pieces, ∀ x ∈ piece.dropWhile (fun x => !isEnd x), isEnd x
  unbroken : pieces.IsChain fun piece next =>
    (∀ x ∈ piece, isEnd x = false) → ∀ x ∈ next.head?, isEnd x

instance (pieces : List (List α)) : Decidable (LineAligned isEnd pieces) :=
  decidable_of_iff
    ((∀ piece ∈ pieces, ∀ x ∈ piece.dropWhile (fun x => !isEnd x), isEnd x) ∧
      pieces.IsChain fun piece next =>
        (∀ x ∈ piece, isEnd x = false) → ∀ x ∈ next.head?, isEnd x)
    ⟨fun h => ⟨h.1, h.2⟩, fun h => ⟨h.whole, h.unbroken⟩⟩

variable {isEnd}

theorem lines_append_ends {ends : List α} (hends : ∀ x ∈ ends, isEnd x) (stream : List α) :
    lines isEnd (ends ++ stream) = lines isEnd stream := by
  induction ends with
  | nil => rfl
  | cons x ends ih =>
      have hx : isEnd x = true := hends x (by simp)
      rw [← ih fun y hy => hends y (by simp [hy])]
      have hsplit := List.splitOnP_append_cons [] (ends ++ stream) hx
      simp only [List.nil_append] at hsplit
      simp [lines, hsplit]

theorem lines_append_line {line : List α} (hline : ∀ x ∈ line, isEnd x = false)
    (hne : line ≠ []) {stream : List α} (hhead : ∀ x ∈ stream.head?, isEnd x) :
    lines isEnd (line ++ stream) = line :: lines isEnd stream := by
  have hkeep : (!line.isEmpty) = true := by simpa using hne
  cases stream with
  | nil => simp [lines, List.splitOnP_eq_singleton hline, hkeep]
  | cons x stream =>
      have hx : isEnd x = true := hhead x rfl
      have hrest : lines isEnd (x :: stream) = lines isEnd stream :=
        @lines_append_ends _ isEnd [x] (by simpa using hx) stream
      rw [hrest]
      simp [lines, List.splitOnP_append_cons_of_forall_mem hline x hx, hkeep]

theorem LineAligned.tail {piece : List α} {pieces : List (List α)}
    (h : LineAligned isEnd (piece :: pieces)) : LineAligned isEnd pieces :=
  ⟨fun piece' hmem => h.whole piece' (by simp [hmem]), h.unbroken.tail⟩

theorem LineAligned.end_follows {piece : List α} {pieces : List (List α)}
    (h : LineAligned isEnd (piece :: pieces)) (hne : ∀ piece ∈ pieces, piece ≠ []) :
    ∀ x ∈ (piece.dropWhile (fun x => !isEnd x) ++ pieces.flatten).head?, isEnd x := by
  cases hdrop : piece.dropWhile (fun x => !isEnd x) with
  | cons y ends =>
      intro x hx
      obtain rfl : y = x := by simpa using hx
      exact h.whole piece (by simp) y (by simp [hdrop])
  | nil =>
      have hpiece : ∀ x ∈ piece, isEnd x = false := by simpa using hdrop
      cases pieces with
      | nil => simp
      | cons next rest =>
          intro x hx
          refine (List.isChain_cons.mp h.unbroken).1 next rfl hpiece x ?_
          cases next with
          | nil => exact absurd rfl (hne [] (by simp))
          | cons y next => simpa using hx

/-- However the line ends are cut, the pieces have the lines of the stream. -/
theorem LineAligned.first_lines {pieces : List (List α)} (h : LineAligned isEnd pieces)
    (hne : ∀ piece ∈ pieces, piece ≠ []) :
    (pieces.map (first_line isEnd)).filter (fun line => !line.isEmpty) =
      lines isEnd pieces.flatten := by
  induction pieces with
  | nil => rfl
  | cons piece pieces ih =>
      have hrest := ih h.tail fun piece' hmem => hne piece' (by simp [hmem])
      have hends := h.whole piece (by simp)
      have hline : ∀ x ∈ first_line isEnd piece, isEnd x = false := fun x hx => by
        simpa using List.mem_takeWhile_imp hx
      have hsplit : first_line isEnd piece ++ piece.dropWhile (fun x => !isEnd x) = piece :=
        List.takeWhile_append_dropWhile
      rw [List.map_cons, List.flatten_cons]
      conv_rhs => rw [← hsplit, List.append_assoc]
      by_cases hblank : first_line isEnd piece = []
      · rw [hblank, List.nil_append, lines_append_ends hends, ← hrest]
        rfl
      · have hhead := h.end_follows fun piece' hmem => hne piece' (by simp [hmem])
        rw [lines_append_line hline hblank hhead, lines_append_ends hends, ← hrest,
          List.filter_cons_of_pos (by simpa using hblank)]

end SnappCollector.Data
