import SnappCollector.Config.Proofs.Xml
import SnappCollector.Control.Proofs.Segments

/-!
# Which passwords can be used

A client logs in with a USER line and a PASS line.  A line that begins with either word goes
to that command if it has eight characters, so three of them are left for the password; and
a password that fills its field is compared with what the memory holds behind it as well.
-/

namespace SnappCollector.Control

open CLib Config

/-! ## Lines -/

/-- The text has no CR, LF or NUL. -/
def Line (text : CStr) : Prop := ∀ c ∈ text, c ≠ '\n' ∧ c ≠ '\r' ∧ c ≠ '\x00'

instance (text : CStr) : Decidable (Line text) :=
  decidable_of_iff (text.all (fun c => c ≠ '\n' ∧ c ≠ '\r' ∧ c ≠ '\x00') = true) (by
    simp only [List.all_eq_true, decide_eq_true_eq, Line])

theorem Line.append {text text' : CStr} (h : Line text) (h' : Line text') : Line (text ++ text') :=
  fun c hc => (List.mem_append.mp hc).elim (h c) (h' c)

theorem line_of_line {text : CStr} (h : Line text) (ends : List Char) :
    line_of (text ++ '\r' :: ends) = text := by
  have hall : ∀ c ∈ text, decide (c ≠ '\n' ∧ c ≠ '\r' ∧ c ≠ '\x00') = true :=
    fun c hc => decide_eq_true (h c hc)
  rw [line_of, List.takeWhile_append_of_pos hall, List.takeWhile_cons_of_neg (by decide),
    List.append_nil]

def buffer_of (word argument : CStr) : List Char := word ++ argument ++ "\r\n".toList

theorem line_of_buffer {word argument : CStr} (hword : Line word) (hargument : Line argument) :
    line_of (buffer_of word argument) = word ++ argument :=
  line_of_line (hword.append hargument) _

theorem line_of_drop_buffer {word argument : CStr} (hargument : Line argument) :
    line_of ((buffer_of word argument).drop word.length) = argument := by
  rw [buffer_of, List.append_assoc, List.drop_left]
  exact line_of_line hargument _

/-! ## Commands -/

section

variable {text needle : CStr} {c d : Char}

theorem strcasestr_of_head (htext : (lower text).head? = some c)
    (hneedle : (lower needle).head? = some d) (hne : d ≠ c) : strcasestr text needle ≠ some 0 := by
  rw [ne_eq, strcasestr_eq_zero_iff]
  rintro ⟨rest, hrest⟩
  rw [← hrest, List.head?_append, hneedle, Option.some_or, Option.some.injEq] at htext
  exact hne htext

theorem strcaseeq_of_head (htext : (lower text).head? = some c)
    (hneedle : (lower needle).head? = some d) (hne : d ≠ c) : ¬strcaseeq text needle := by
  rw [strcaseeq, decide_eq_true_iff]
  intro heq
  rw [heq, hneedle, Option.some.injEq] at htext
  exact hne htext

theorem strcasestr_append (word argument : CStr) : strcasestr (word ++ argument) word = some 0 := by
  rw [strcasestr_eq_zero_iff, lower, lower, List.map_append]
  exact List.prefix_append _ _

end

/-- The tests in front of the one for USER are all for other first letters. -/
theorem read_command_user_line (name : CStr) :
    read_command ("user ".toList ++ name) =
      if 3 ≤ name.length then (CONTROL_COMMAND_USER, some 5) else (-1, none) := by
  have hhead : (lower ("user ".toList ++ name)).head? = some 'u' := rfl
  have hlength : 8 ≤ ("user ".toList ++ name).length ↔ 3 ≤ name.length := by
    have hword : "user ".toList.length = 5 := rfl
    rw [List.length_append, hword]
    omega
  rw [read_command, if_neg (strcasestr_of_head hhead rfl (by decide)),
    if_neg (strcaseeq_of_head hhead rfl (by decide)),
    if_neg (strcasestr_of_head hhead rfl (by decide)),
    if_neg (strcasestr_of_head hhead rfl (by decide)), if_pos (strcasestr_append _ _)]
  simp only [hlength]

theorem read_command_pass_line (password : CStr) :
    read_command ("pass ".toList ++ password) =
      if 3 ≤ password.length then (CONTROL_COMMAND_PASS, some 5) else (-1, none) := by
  have hhead : (lower ("pass ".toList ++ password)).head? = some 'p' := rfl
  have hlength : 8 ≤ ("pass ".toList ++ password).length ↔ 3 ≤ password.length := by
    have hword : "pass ".toList.length = 5 := rfl
    rw [List.length_append, hword]
    omega
  rw [read_command, if_neg (strcasestr_of_head hhead rfl (by decide)),
    if_neg (strcaseeq_of_head hhead rfl (by decide)),
    if_neg (strcasestr_of_head hhead rfl (by decide)),
    if_neg (strcasestr_of_head hhead rfl (by decide)),
    if_neg (strcasestr_of_head hhead rfl (by decide)), if_pos (strcasestr_append _ _)]
  simp only [hlength]

/-! ## Turns -/

def served_until (enable_password : CStr) : Session → List Turn → Option Session
  | s, [] => some s
  | s, turn :: turns =>
      if turn.prompt_sent = false ∨ turn.received = [] then none
      else
        let (served, s') := serve_buffer enable_password s turn.received
        if goes_on served.work turn.answer_sent then served_until enable_password s' turns else none

section

variable {enable_password : CStr} {s s' : Session} {turn : Turn} {turns : List Turn}

theorem served_until_cons (h : served_until enable_password s (turn :: turns) = some s') :
    ¬(turn.prompt_sent = false ∨ turn.received = []) ∧
      goes_on (serve_buffer enable_password s turn.received).1.work turn.answer_sent = true ∧
      served_until enable_password (serve_buffer enable_password s turn.received).2 turns =
        some s' := by
  rw [served_until] at h
  split at h
  · cases h
  next hturn =>
    simp only at h
    split at h
    next hgoes => exact ⟨hturn, hgoes, h⟩
    · cases h

theorem serve_append (h : served_until enable_password s turns = some s') (rest : List Turn) :
    (serve enable_password s (turns ++ rest)).2 = (serve enable_password s' rest).2 := by
  induction turns generalizing s with
  | nil =>
      cases h
      rfl
  | cons turn turns ih =>
      obtain ⟨hturn, hgoes, hrest⟩ := served_until_cons h
      rw [List.cons_append, serve, if_neg hturn]
      simp only
      rw [if_pos hgoes]
      exact ih hrest

theorem connection_state_mem (hs : s.connection_state ∈ connection_states)
    (h : served_until enable_password s turns = some s') :
    s'.connection_state ∈ connection_states := by
  induction turns generalizing s with
  | nil =>
      cases h
      exact hs
  | cons turn turns ih =>
      obtain ⟨-, -, hrest⟩ := served_until_cons h
      exact ih (serve_buffer_state turn.received hs) hrest

theorem serve_last {received : List Char} (hne : received ≠ []) (answer_sent : Bool) :
    (serve enable_password s [⟨true, received, answer_sent⟩]).2 =
      (serve_buffer enable_password s received).2.connection_state := by
  rw [serve, if_neg (by simpa using hne)]
  simp only
  split <;> rfl

end

/-! ## A user and a password -/

section

variable {enable_password name password : CStr} {s : Session}

/-- USER leads to the state that waits for a password, from there back to it. -/
theorem serve_buffer_user (hname : Line name) (hlength : 3 ≤ name.length)
    (hstate : s.connection_state = CONTROL_CONNECTION_STATE_CONNECTED ∨
      s.connection_state = CONTROL_CONNECTION_STATE_USERNAME_RECEIVED) :
    goes_on (serve_buffer enable_password s (buffer_of "user ".toList name)).1.work true = true ∧
      (serve_buffer enable_password s (buffer_of "user ".toList name)).2.connection_state =
        CONTROL_CONNECTION_STATE_USERNAME_RECEIVED := by
  have hline := @line_of_buffer "user ".toList name (by decide) hname
  simp only [serve_buffer, text_of_remove_line_ends, hline, read_command_user_line, hlength,
    if_true]
  rcases hstate with hstate | hstate <;> rw [hstate] <;> exact ⟨rfl, rfl⟩

theorem username_received_ne :
    CONTROL_CONNECTION_STATE_USERNAME_RECEIVED ≠ CONTROL_CONNECTION_STATE_AUTHENTICATED := by
  decide

theorem dispatch_pass (enable_password : CStr) (buf : List Char) (offset : Nat) :
    dispatch enable_password buf (some offset) CONTROL_COMMAND_PASS
        CONTROL_CONNECTION_STATE_USERNAME_RECEIVED =
      if enable_password = text_of (buf.drop offset) then
        (.login, CONTROL_CONNECTION_STATE_AUTHENTICATED)
      else (.login_failure, CONTROL_CONNECTION_STATE_USERNAME_RECEIVED) := rfl

/-- PASS compares what stands behind the word, if it is long enough. -/
theorem serve_buffer_pass (hpassword : Line password)
    (hstate : s.connection_state = CONTROL_CONNECTION_STATE_USERNAME_RECEIVED) :
    (serve_buffer enable_password s (buffer_of "pass ".toList password)).2.connection_state =
        CONTROL_CONNECTION_STATE_AUTHENTICATED ↔
      3 ≤ password.length ∧ enable_password = password := by
  have hline := @line_of_buffer "pass ".toList password (by decide) hpassword
  simp only [serve_buffer, text_of_remove_line_ends, hline, read_command_pass_line, hstate]
  by_cases hlength : 3 ≤ password.length
  · have hargument := @line_of_drop_buffer "pass ".toList password hpassword
    rw [← text_of_drop] at hargument
    have hswitch := dispatch_pass enable_password
      (remove_line_ends (buffer_of "pass ".toList password)) "pass ".toList.length
    rw [hargument] at hswitch
    simp only [hlength, if_true, true_and]
    calc
      _ ↔ (if enable_password = password then (Work.login, CONTROL_CONNECTION_STATE_AUTHENTICATED)
            else (Work.login_failure, CONTROL_CONNECTION_STATE_USERNAME_RECEIVED)).2 =
          CONTROL_CONNECTION_STATE_AUTHENTICATED := by rw [← hswitch]; rfl
      _ ↔ enable_password = password := by
          split
          next heq => simp [heq]
          next hne => simp [hne, username_received_ne]
  · simp only [hlength, if_false, false_and, iff_false]
    rw [dispatch_unknown (by decide)]
    exact username_received_ne

theorem serve_login {turns : List Turn} {s' : Session} (hname : Line name)
    (hlength : 3 ≤ name.length) (hpassword : Line password)
    (hs : s.connection_state ∈ connection_states)
    (hturns : served_until enable_password s turns = some s')
    (hstate : s'.connection_state ≠ CONTROL_CONNECTION_STATE_AUTHENTICATED) (answer_sent : Bool) :
    (serve enable_password s (turns ++ [⟨true, buffer_of "user ".toList name, true⟩,
        ⟨true, buffer_of "pass ".toList password, answer_sent⟩])).2 =
        CONTROL_CONNECTION_STATE_AUTHENTICATED ↔
      3 ≤ password.length ∧ enable_password = password := by
  have hwaits : s'.connection_state = CONTROL_CONNECTION_STATE_CONNECTED ∨
      s'.connection_state = CONTROL_CONNECTION_STATE_USERNAME_RECEIVED := by
    have hmem := connection_state_mem hs hturns
    simp only [connection_states, List.mem_cons, List.not_mem_nil, or_false] at hmem
    rcases hmem with h | h | h
    exacts [.inl h, .inr h, absurd h hstate]
  obtain ⟨hgoes, huser⟩ := @serve_buffer_user enable_password name s' hname hlength hwaits
  rw [serve_append hturns, serve, if_neg (by simp [buffer_of])]
  simp only
  rw [if_pos hgoes]
  simp only
  rw [serve_last (by simp [buffer_of]), serve_buffer_pass hpassword huser]

end

/-! ## The configured password -/

/-- A text that fills its field is followed by the memory behind it. -/
theorem copy_field_eq_iff {beyond password : CStr}
    (hfield : password.length ≤ STD_STRING_SIZE - 1) :
    copy_field beyond password = password ↔
      password.length < STD_STRING_SIZE - 1 ∨ beyond = [] := by
  unfold copy_field
  by_cases hlt : password.length < STD_STRING_SIZE - 1
  · simp only [strncpy_of_lt beyond hlt, hlt, true_or]
  · rw [strncpy, if_neg hlt, List.take_of_length_le hfield, List.append_right_eq_self]
    exact (or_iff_right hlt).symm

/-- A configured password lets a client in if the PASS line is long enough for the command,
and the field long enough for the password. -/
theorem password_usable_iff {beyond memory xml_config : XML_config} {children : List XmlNode}
    {password name : CStr} {turns : List Turn} {s : Session} (connection_state : Int32)
    (answer_sent : Bool)
    (hconfig : load_xml_config beyond (.root children) memory = .returned xml_config)
    (hconfigured : configured_password children = some password) (hpassword : Line password)
    (hfield : password.length ≤ STD_STRING_SIZE - 1) (hname : Line name)
    (hlength : 3 ≤ name.length)
    (hturns : served_until xml_config.control.enable_password
      ⟨CONTROL_CONNECTION_STATE_CONNECTED, none⟩ turns = some s)
    (hstate : s.connection_state ≠ CONTROL_CONNECTION_STATE_AUTHENTICATED) :
    (handle_connection xml_config.control.enable_password connection_state
        ⟨true, turns ++ [⟨true, buffer_of "user ".toList name, true⟩,
          ⟨true, buffer_of "pass ".toList password, answer_sent⟩]⟩).2 =
        CONTROL_CONNECTION_STATE_AUTHENTICATED ↔
      3 ≤ password.length ∧
        (password.length < STD_STRING_SIZE - 1 ∨ beyond.control.enable_password = []) := by
  have hcopied := password_load_xml_config hconfig hconfigured
  have hstart : CONTROL_CONNECTION_STATE_CONNECTED ∈ connection_states := by decide
  rw [handle_connection, if_pos rfl, serve_login hname hlength hpassword hstart hturns hstate,
    hcopied, copy_field_eq_iff hfield]

def zeroed_config : XML_config := ⟨[], ⟨0, []⟩, ⟨[], [], [], [], [], [], []⟩⟩

def control_file (password : String) : List XmlNode :=
  [⟨"control".toList, [("port".toList, "9967".toList),
    ("enable_password".toList, password.toList)], none⟩]

def config_with (password : String) : XML_config :=
  { zeroed_config with control := ⟨9967, password.toList⟩ }

def login_turns (password : String) : List Turn :=
  [⟨true, "help\r\n".toList, true⟩] ++ [⟨true, buffer_of "user ".toList "abc".toList, true⟩,
    ⟨true, buffer_of "pass ".toList password.toList, true⟩]

theorem password_of_three_usable :
    (handle_connection (config_with "pw1").control.enable_password
      CONTROL_CONNECTION_STATE_CONNECTED ⟨true, login_turns "pw1"⟩).2 =
      CONTROL_CONNECTION_STATE_AUTHENTICATED := by
  have hconfig : load_xml_config zeroed_config (.root (control_file "pw1")) zeroed_config =
      .returned (config_with "pw1") := by decide +kernel
  have hturns : served_until (config_with "pw1").control.enable_password
      ⟨CONTROL_CONNECTION_STATE_CONNECTED, none⟩ [⟨true, "help\r\n".toList, true⟩] =
      some ⟨CONTROL_CONNECTION_STATE_CONNECTED, none⟩ := by decide +kernel
  have hconfigured : configured_password (control_file "pw1") = some "pw1".toList := by
    decide +kernel
  exact (password_usable_iff CONTROL_CONNECTION_STATE_CONNECTED true hconfig hconfigured
    (by decide) (by decide) (by decide) (by decide) hturns (by decide)).mpr (by decide)

theorem password_of_two_unusable :
    load_xml_config zeroed_config (.root (control_file "pw")) zeroed_config =
        .returned (config_with "pw") ∧
      configured_password (control_file "pw") = some "pw".toList ∧
      (handle_connection (config_with "pw").control.enable_password
        CONTROL_CONNECTION_STATE_CONNECTED ⟨true, login_turns "pw"⟩).2 =
        CONTROL_CONNECTION_STATE_USERNAME_RECEIVED := by
  decide +kernel

end SnappCollector.Control
