import SnappCollector.Control.Proofs.Login
import SnappCollector.Data.Lines

/-!
# How the stream is cut

The worker takes each result of `recv` for a command.  Two ways of cutting a stream
come to the same commands if both hand over every line from its start and as a whole,
wherever its CRs and LFs go; otherwise they need not.
-/

namespace SnappCollector.Control

open CLib Data

def is_line_end (c : Char) : Bool := c = '\n' ∨ c = '\r'

/-- A stream in pieces that `recv` can give. -/
structure Cutting (stream : List Char) (buffers : List (List Char)) : Prop where
  flatten : buffers.flatten = stream
  sizes : ∀ received ∈ buffers, 0 < received.length ∧ received.length ≤ CONTROL_BUF_SIZE - 1

def turns_of (buffers : List (List Char)) : List Turn :=
  buffers.map fun received => ⟨true, received, true⟩

def session (enable_password : CStr) (buffers : List (List Char)) : List Served × Int32 :=
  handle_connection enable_password CONTROL_CONNECTION_STATE_CONNECTED ⟨true, turns_of buffers⟩

def executed (served : Served) : Option (Int32 × Option CStr × Work) :=
  if served.command = -1 then none else some (served.command, served.argument, served.work)

def outcome (result : List Served × Int32) : List (Int32 × Option CStr × Work) × Int32 :=
  (result.1.filterMap executed, result.2)

/-! ## One buffer -/

theorem line_of_append_ends (received : List Char) {ends : List Char}
    (hends : ∀ c ∈ ends, is_line_end c) : line_of (received ++ ends) = line_of received := by
  induction received with
  | nil =>
      cases ends with
      | nil => rfl
      | cons c ends =>
          have hc : c = '\n' ∨ c = '\r' := by simpa [is_line_end] using hends c (by simp)
          rcases hc with rfl | rfl <;> rfl
  | cons c received ih =>
      simp only [line_of, List.cons_append, List.takeWhile_cons] at ih ⊢
      rw [ih]

theorem dispatch_congr {password : CStr} {buf buf' : List Char}
    (hbuf : ∀ n, text_of (buf.drop n) = text_of (buf'.drop n)) (arg : Option Nat)
    (command state : Int32) :
    dispatch password buf arg command state = dispatch password buf' arg command state := by
  simp only [dispatch, hbuf]

theorem serve_buffer_append_ends (password : CStr) (s : Session) (received : List Char)
    {ends : List Char} (hends : ∀ c ∈ ends, is_line_end c) :
    serve_buffer password s (received ++ ends) =
      ({ (serve_buffer password s received).1 with received := received ++ ends },
        (serve_buffer password s received).2) := by
  have htext : ∀ n, text_of ((remove_line_ends (received ++ ends)).drop n) =
      text_of ((remove_line_ends received).drop n) := by
    intro n
    rw [text_of_drop, text_of_drop, List.drop_append]
    exact line_of_append_ends _ fun c hc => hends c (List.mem_of_mem_drop hc)
  have hstart := htext 0
  simp only [List.drop_zero] at hstart
  simp only [serve_buffer, hstart, htext, dispatch_congr htext]

theorem dispatch_unknown {password : CStr} {buf : List Char} {arg : Option Nat} {state : Int32}
    (hstate : state ∈ connection_states) :
    dispatch password buf arg (-1) state = (.not_recognized, state) := by
  simp only [connection_states, List.mem_cons, List.not_mem_nil, or_false] at hstate
  rcases hstate with rfl | rfl | rfl <;> rfl

theorem serve_buffer_ends (password : CStr) {s : Session}
    (hstate : s.connection_state ∈ connection_states) {ends : List Char} (hends : ∀ c ∈ ends, is_line_end c) :
    executed (serve_buffer password s ends).1 = none ∧
      (serve_buffer password s ends).1.work = .not_recognized ∧
      (serve_buffer password s ends).2 = s := by
  have hblank : read_command [] = (-1, none) := rfl
  rw [← List.nil_append ends, serve_buffer_append_ends password s [] hends]
  have htext : text_of (remove_line_ends []) = [] := rfl
  simp only [serve_buffer, htext, hblank, dispatch_unknown hstate]
  exact ⟨rfl, trivial, rfl⟩

theorem serve_buffer_state {password : CStr} {s : Session} (received : List Char)
    (hstate : s.connection_state ∈ connection_states) :
    (serve_buffer password s received).2.connection_state ∈ connection_states := by
  have hafter : (serve_buffer password s received).2.connection_state =
      (serve_buffer password s received).1.after := rfl
  rw [hafter]
  rcases (@serve_buffer_cases password s received hstate).1 with h | h | h
  · exact h.after ▸ by decide
  · exact h.after ▸ by decide
  · exact h ▸ hstate

/-! ## Sessions -/

theorem serve_turn (password : CStr) (s : Session) {received : List Char} (hne : received ≠ [])
    (turns : List Turn) :
    outcome (serve password s (⟨true, received, true⟩ :: turns)) =
      let (served, s') := serve_buffer password s received
      if goes_on served.work true then
        ((executed served).toList ++ (outcome (serve password s' turns)).1,
          (outcome (serve password s' turns)).2)
      else ((executed served).toList, served.after) := by
  rw [serve, if_neg (by simpa using hne)]
  simp only
  split
  · simp only [outcome, List.filterMap_cons]
    cases executed (serve_buffer password s received).1 <;> rfl
  · simp only [outcome, List.filterMap_cons]
    cases executed (serve_buffer password s received).1 <;> rfl

/-- Only the first lines of the buffers matter, and blank ones do not. -/
theorem outcome_serve {password : CStr} {s : Session}
    (hstate : s.connection_state ∈ connection_states) {buffers : List (List Char)}
    (hwhole : ∀ received ∈ buffers, ∀ c ∈ received.dropWhile (fun c => !is_line_end c),
      is_line_end c)
    (hne : ∀ received ∈ buffers, received ≠ []) :
    outcome (serve password s (turns_of buffers)) =
      outcome (serve password s (turns_of
        ((buffers.map (first_line is_line_end)).filter fun line => !line.isEmpty))) := by
  induction buffers generalizing s with
  | nil => rfl
  | cons received buffers ih =>
      have hrest := fun {s : Session} (hstate : s.connection_state ∈ connection_states) =>
        ih hstate (fun r hr => hwhole r (by simp [hr])) (fun r hr => hne r (by simp [hr]))
      have hends := hwhole received (by simp)
      have hsplit : first_line is_line_end received ++
          received.dropWhile (fun c => !is_line_end c) = received :=
        List.takeWhile_append_dropWhile
      rw [turns_of, List.map_cons, serve_turn password s (hne received (by simp))]
      by_cases hblank : first_line is_line_end received = []
      · rw [hblank, List.nil_append] at hsplit
        rw [hsplit] at hends
        obtain ⟨hexecuted, hwork, hs⟩ := serve_buffer_ends password hstate hends
        simp only [hexecuted, hwork, hs]
        rw [List.map_cons, List.filter_cons_of_neg (by simpa using hblank)]
        exact hrest hstate
      · have hserve := serve_buffer_append_ends password s (first_line is_line_end received) hends
        rw [hsplit] at hserve
        have hnext := hrest (@serve_buffer_state password s
          (first_line is_line_end received) hstate)
        rw [List.map_cons, List.filter_cons_of_pos (by simpa using hblank), turns_of,
          List.map_cons, serve_turn password s hblank, hserve]
        simp only
        rw [turns_of, turns_of] at hnext
        rw [hnext]
        rfl

/-- Two cuttings of one stream that keep its lines whole execute the same commands with
the same arguments and end in the same state. -/
theorem session_eq_of_lineAligned (enable_password : CStr) {stream : List Char}
    {buffers buffers' : List (List Char)} (hcut : Cutting stream buffers)
    (hcut' : Cutting stream buffers') (haligned : LineAligned is_line_end buffers)
    (haligned' : LineAligned is_line_end buffers') :
    outcome (session enable_password buffers) = outcome (session enable_password buffers') := by
  have hlines : ∀ {buffers : List (List Char)}, Cutting stream buffers →
      LineAligned is_line_end buffers → outcome (session enable_password buffers) =
        outcome (session enable_password (lines is_line_end stream)) := by
    intro buffers hcut haligned
    have hne : ∀ received ∈ buffers, received ≠ [] := fun received hmem =>
      List.length_pos_iff.mp (hcut.sizes received hmem).1
    have hserve := @outcome_serve enable_password ⟨CONTROL_CONNECTION_STATE_CONNECTED, none⟩
      (by decide) buffers haligned.whole hne
    rw [haligned.first_lines hne, hcut.flatten] at hserve
    exact hserve
  rw [hlines hcut haligned, hlines hcut' haligned']

/-! ## A user and a password -/

def line_by_line : List (List Char) := ["user abc\r\n".toList, "pass pw1\r\n".toList]

/-- The stream of the lines with its LFs on their own. -/
def ends_apart : List (List Char) :=
  ["user abc\r".toList, "\n".toList, "pass pw1\r".toList, "\n".toList]

def at_once : List (List Char) := ["user abc\r\npass pw1\r\n".toList]

def login_stream : List Char := "user abc\r\npass pw1\r\n".toList

theorem session_ends_apart : outcome (session "pw1".toList line_by_line) =
    outcome (session "pw1".toList ends_apart) := by
  have hcut : Cutting login_stream line_by_line := ⟨by decide, by decide⟩
  have hcut' : Cutting login_stream ends_apart := ⟨by decide, by decide⟩
  exact session_eq_of_lineAligned "pw1".toList hcut hcut' (by decide) (by decide)

/-- In one buffer, what follows on the first line is lost. -/
theorem session_at_once_ne : Cutting login_stream line_by_line ∧ Cutting login_stream at_once ∧
    outcome (session "pw1".toList line_by_line) ≠ outcome (session "pw1".toList at_once) := by
  refine ⟨⟨by decide, by decide⟩, ⟨by decide, by decide⟩, ?_⟩
  decide +kernel

end SnappCollector.Control
