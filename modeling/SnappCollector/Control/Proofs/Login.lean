import Mathlib.Data.List.Chain
import SnappCollector.Control.Commands

/-!
# Logging in

A worker reloads or sets the log expression for a connection only after a USER and
then a PASS with the right password on this connection.
-/

namespace SnappCollector.Control

open CLib

/-! ## Buffers -/

/-- What `recv` left up to the first CR, LF or NUL. -/
def line_of (received : List Char) : CStr :=
  received.takeWhile fun c => c ≠ '\n' ∧ c ≠ '\r' ∧ c ≠ '\x00'

theorem text_of_remove_line_ends (received : List Char) :
    text_of (remove_line_ends received) = line_of received := by
  induction received with
  | nil => rfl
  | cons c received ih =>
      simp only [text_of, remove_line_ends, line_of] at ih ⊢
      by_cases hend : c = '\n' ∨ c = '\r'
      · rcases hend with rfl | rfl <;> simp
      · obtain ⟨hlf, hcr⟩ := not_or.mp hend
        by_cases hnul : c = '\x00'
        · simp [hnul]
        · simpa [hlf, hcr, hnul] using ih

theorem text_of_drop (received : List Char) (n : Nat) :
    text_of ((remove_line_ends received).drop n) = line_of (received.drop n) := by
  rw [remove_line_ends, ← List.map_drop]
  exact text_of_remove_line_ends _

def IsUser (received : List Char) : Prop :=
  lower "user ".toList <+: lower (line_of received) ∧ 8 ≤ (line_of received).length

def IsPass (received : List Char) : Prop :=
  lower "pass ".toList <+: lower (line_of received) ∧ 8 ≤ (line_of received).length

/-! ## One buffer -/

def control_commands : List Int32 :=
  [-1, CONTROL_COMMAND_QUIT, CONTROL_COMMAND_USER, CONTROL_COMMAND_PASS, CONTROL_COMMAND_RELOAD,
    CONTROL_COMMAND_STATUS, CONTROL_COMMAND_HELP, CONTROL_COMMAND_LOGREGEXP]

def connection_states : List Int32 :=
  [CONTROL_CONNECTION_STATE_CONNECTED, CONTROL_CONNECTION_STATE_USERNAME_RECEIVED,
    CONTROL_CONNECTION_STATE_AUTHENTICATED]

theorem unpack_packed : ∀ command ∈ control_commands, ∀ state ∈ connection_states,
    packed command state >>> 8 = command ∧ packed command state &&& 255 = state := by
  have hall : control_commands.all fun command => connection_states.all fun state =>
      packed command state >>> 8 = command ∧ packed command state &&& 255 = state := by
    decide
  intro command hcommand state hstate
  have hstates := List.all_eq_true.mp hall command hcommand
  simpa using List.all_eq_true.mp hstates state hstate

theorem packed_inj {command command' state state' : Int32} (hcommand : command ∈ control_commands)
    (hcommand' : command' ∈ control_commands) (hstate : state ∈ connection_states)
    (hstate' : state' ∈ connection_states)
    (heq : packed command state = packed command' state') : command = command' ∧ state = state' := by
  obtain ⟨hshift, hmask⟩ := unpack_packed command hcommand state hstate
  obtain ⟨hshift', hmask'⟩ := unpack_packed command' hcommand' state' hstate'
  exact ⟨hshift.symm.trans (heq ▸ hshift'), hmask.symm.trans (heq ▸ hmask')⟩

theorem read_command_cases (text : CStr) :
    ((read_command text).1 = CONTROL_COMMAND_USER ∧
      lower "user ".toList <+: lower text ∧ 8 ≤ text.length) ∨
    (read_command text = (CONTROL_COMMAND_PASS, some 5) ∧
      lower "pass ".toList <+: lower text ∧ 8 ≤ text.length) ∨
    (read_command text).1 ∈ [-1, CONTROL_COMMAND_QUIT, CONTROL_COMMAND_RELOAD, CONTROL_COMMAND_STATUS,
      CONTROL_COMMAND_HELP, CONTROL_COMMAND_LOGREGEXP] := by
  generalize hresult : read_command text = result
  unfold read_command at hresult
  split at hresult
  · exact .inr (.inr (hresult ▸ by decide))
  split at hresult
  · exact .inr (.inr (hresult ▸ by decide))
  split at hresult
  · exact .inr (.inr (hresult ▸ by decide))
  split at hresult
  · exact .inr (.inr (hresult ▸ by decide))
  split at hresult
  next huser =>
    split at hresult
    next hlength => exact .inl ⟨hresult ▸ rfl, strcasestr_eq_zero_iff.mp huser, hlength⟩
    · exact .inr (.inr (hresult ▸ by decide))
  split at hresult
  next hpass =>
    split at hresult
    next hlength => exact .inr (.inl ⟨hresult.symm, strcasestr_eq_zero_iff.mp hpass, hlength⟩)
    · exact .inr (.inr (hresult ▸ by decide))
  split at hresult
  · split at hresult <;> exact .inr (.inr (hresult ▸ by decide))
  · exact .inr (.inr (hresult ▸ by decide))

theorem read_command_mem (text : CStr) : (read_command text).1 ∈ control_commands := by
  rcases read_command_cases text with ⟨huser, -⟩ | ⟨hpass, -⟩ | hother
  · exact huser ▸ by decide
  · exact hpass ▸ by decide
  · exact (by decide : _ ⊆ control_commands) hother

theorem read_command_user {text : CStr} (h : (read_command text).1 = CONTROL_COMMAND_USER) :
    lower "user ".toList <+: lower text ∧ 8 ≤ text.length := by
  rcases read_command_cases text with ⟨-, huser⟩ | ⟨hpass, -⟩ | hother
  · exact huser
  · exact absurd ((congrArg Prod.fst hpass).symm.trans h) (by decide)
  · exact absurd (h ▸ hother) (by decide)

theorem read_command_pass {text : CStr} (h : (read_command text).1 = CONTROL_COMMAND_PASS) :
    (lower "pass ".toList <+: lower text ∧ 8 ≤ text.length) ∧ (read_command text).2 = some 5 := by
  rcases read_command_cases text with ⟨huser, -⟩ | ⟨hresult, hpass⟩ | hother
  · exact absurd (huser.symm.trans h) (by decide)
  · exact ⟨hpass, congrArg Prod.snd hresult⟩
  · exact absurd (h ▸ hother) (by decide)

/-- What only a client that has logged in can have done. -/
def Work.Privileged : Work → Prop
  | .do_reload | .do_regexp _ => True
  | _ => False

theorem dispatch_cases {password : CStr} {buf : List Char} {arg : Option Nat}
    {command state : Int32} (hcommand : command ∈ control_commands)
    (hstate : state ∈ connection_states) :
    (command = CONTROL_COMMAND_USER ∧ state = CONTROL_CONNECTION_STATE_CONNECTED ∧
      dispatch password buf arg command state =
        (.user, CONTROL_CONNECTION_STATE_USERNAME_RECEIVED)) ∨
    (command = CONTROL_COMMAND_PASS ∧ state = CONTROL_CONNECTION_STATE_USERNAME_RECEIVED ∧
      (∃ offset, arg = some offset ∧ password = text_of (buf.drop offset)) ∧
      dispatch password buf arg command state =
        (.login, CONTROL_CONNECTION_STATE_AUTHENTICATED)) ∨
    ((dispatch password buf arg command state).2 = state ∧
      ((dispatch password buf arg command state).1.Privileged →
        state = CONTROL_CONNECTION_STATE_AUTHENTICATED)) := by
  have hkey : ∀ command' ∈ control_commands, ∀ state' ∈ connection_states,
      packed command state = packed command' state' → command = command' ∧ state = state' :=
    fun _ hcommand' _ hstate' => packed_inj hcommand hcommand' hstate hstate'
  generalize hresult : dispatch password buf arg command state = result
  simp only [dispatch] at hresult
  split_ifs at hresult with hquit huser hpass hreload hregexp hstatus hhelp hrefused
  · exact .inr (.inr (hresult ▸ ⟨rfl, False.elim⟩))
  · obtain ⟨rfl, rfl⟩ := hkey _ (by decide) _ (by decide) huser
    exact .inl ⟨rfl, rfl, hresult.symm⟩
  · obtain ⟨rfl, rfl⟩ := hkey _ (by decide) _ (by decide) hpass
    cases arg with
    | none => exact .inr (.inr (hresult ▸ ⟨rfl, False.elim⟩))
    | some offset =>
        simp only at hresult
        split_ifs at hresult with hpassword
        · exact .inr (.inl ⟨rfl, rfl, ⟨offset, rfl, hpassword⟩, hresult.symm⟩)
        · exact .inr (.inr (hresult ▸ ⟨rfl, False.elim⟩))
  · obtain ⟨rfl, rfl⟩ := hkey _ (by decide) _ (by decide) hreload
    exact .inr (.inr (hresult ▸ ⟨rfl, fun _ => rfl⟩))
  · obtain ⟨rfl, rfl⟩ := hkey _ (by decide) _ (by decide) hregexp
    cases arg with
    | none => exact .inr (.inr (hresult ▸ ⟨rfl, False.elim⟩))
    | some offset => exact .inr (.inr (hresult ▸ ⟨rfl, fun _ => rfl⟩))
  all_goals exact .inr (.inr (hresult ▸ ⟨rfl, False.elim⟩))

structure UserAccepted (served : Served) : Prop where
  user : IsUser served.received
  before : served.before = CONTROL_CONNECTION_STATE_CONNECTED
  after : served.after = CONTROL_CONNECTION_STATE_USERNAME_RECEIVED

structure PassAccepted (password : CStr) (served : Served) : Prop where
  pass : IsPass served.received
  password : line_of (served.received.drop 5) = password
  before : served.before = CONTROL_CONNECTION_STATE_USERNAME_RECEIVED
  after : served.after = CONTROL_CONNECTION_STATE_AUTHENTICATED

theorem serve_buffer_cases {password : CStr} {s : Session} (received : List Char)
    (hstate : s.connection_state ∈ connection_states) :
    let served := (serve_buffer password s received).1
    (UserAccepted served ∨ PassAccepted password served ∨ served.after = served.before) ∧
      (served.work.Privileged → served.before = CONTROL_CONNECTION_STATE_AUTHENTICATED) := by
  have hmem := read_command_mem (line_of received)
  have hcases := @dispatch_cases password (remove_line_ends received)
    ((read_command (line_of received)).2 <|> s.arg) _ _ hmem hstate
  simp only [serve_buffer, text_of_remove_line_ends]
  rcases hcases with ⟨hcommand, hbefore, heq⟩ | ⟨hcommand, hbefore, ⟨offset, harg, htext⟩, heq⟩ |
    ⟨hafter, hprivileged⟩
  · refine ⟨.inl ⟨read_command_user hcommand, hbefore, congrArg Prod.snd heq⟩, ?_⟩
    rw [heq]
    exact False.elim
  · obtain ⟨hpass, hoffset⟩ := read_command_pass hcommand
    rw [hoffset] at harg
    cases harg
    rw [text_of_drop] at htext
    refine ⟨.inr (.inl ⟨hpass, htext.symm, hbefore, congrArg Prod.snd heq⟩), ?_⟩
    rw [heq]
    exact False.elim
  · exact ⟨.inr (.inr hafter), hprivileged⟩

/-! ## Connections -/

/-- Among the buffers there is a USER, and behind it a PASS with the password. -/
def LoggedIn (password : CStr) (done : List Served) : Prop :=
  ∃ user pass, [user, pass].Sublist done ∧ UserAccepted user ∧ PassAccepted password pass

def Progress (password : CStr) (done : List Served) (state : Int32) : Prop :=
  state = CONTROL_CONNECTION_STATE_CONNECTED ∨
  (state = CONTROL_CONNECTION_STATE_USERNAME_RECEIVED ∧ ∃ user ∈ done, UserAccepted user) ∨
  (state = CONTROL_CONNECTION_STATE_AUTHENTICATED ∧ LoggedIn password done)

theorem Progress.mem_states {password : CStr} {done : List Served} {state : Int32}
    (h : Progress password done state) : state ∈ connection_states := by
  rcases h with rfl | ⟨rfl, -⟩ | ⟨rfl, -⟩ <;> decide

theorem Progress.mono {password : CStr} {done : List Served} {state : Int32}
    (h : Progress password done state) (served : Served) :
    Progress password (done ++ [served]) state := by
  rcases h with rfl | ⟨rfl, user, hmem, huser⟩ | ⟨rfl, user, pass, hsub, huser, hpass⟩
  · exact .inl rfl
  · exact .inr (.inl ⟨rfl, user, List.mem_append_left _ hmem, huser⟩)
  · exact .inr (.inr ⟨rfl, user, pass, hsub.trans (List.sublist_append_left _ _), huser, hpass⟩)

theorem Progress.loggedIn {password : CStr} {done : List Served}
    (h : Progress password done CONTROL_CONNECTION_STATE_AUTHENTICATED) :
    LoggedIn password done := by
  rcases h with h | ⟨h, -⟩ | ⟨-, h⟩
  exacts [absurd h (by decide), absurd h (by decide), h]

theorem Progress.exists_user {password : CStr} {done : List Served}
    (h : Progress password done CONTROL_CONNECTION_STATE_USERNAME_RECEIVED) :
    ∃ user ∈ done, UserAccepted user := by
  rcases h with h | ⟨-, h⟩ | ⟨h, -⟩
  exacts [absurd h (by decide), h, absurd h (by decide)]

theorem Progress.next {password : CStr} {done : List Served} {served : Served}
    (h : Progress password done served.before)
    (hserved : UserAccepted served ∨ PassAccepted password served ∨ served.after = served.before) :
    Progress password (done ++ [served]) served.after := by
  rcases hserved with huser | hpass | hsame
  · exact .inr (.inl ⟨huser.after, served, by simp, huser⟩)
  · obtain ⟨user, hmem, huser⟩ := (hpass.before ▸ h).exists_user
    refine .inr (.inr ⟨hpass.after, user, served, ?_, huser, hpass⟩)
    exact (List.singleton_sublist.mpr hmem).append (.refl [served])
  · exact hsame ▸ h.mono served

structure ServedFrom (password : CStr) (done : List Served) (state : Int32)
    (trace : List Served) : Prop where
  /-- a reload or a new log expression needs a login -/
  privileged : ∀ before served rest, trace = before ++ served :: rest → served.work.Privileged →
    LoggedIn password (done ++ before)
  /-- the state changes at an accepted USER or PASS only -/
  changes : ∀ served ∈ trace, served.after ≠ served.before →
    UserAccepted served ∨ PassAccepted password served
  increases : ∀ served ∈ trace, served.before ≤ served.after
  starts : ∀ served ∈ trace.head?, served.before = state
  keeps : trace.IsChain fun served next => next.before = served.after

theorem servedFrom_nil (password : CStr) (done : List Served) (state : Int32) :
    ServedFrom password done state [] where
  privileged before served rest h := by simp at h
  changes := by simp
  increases := by simp
  starts := by simp
  keeps := .nil

theorem servedFrom_cons {password : CStr} {done rest : List Served} {served : Served}
    (hserved : UserAccepted served ∨ PassAccepted password served ∨ served.after = served.before)
    (hwork : served.work.Privileged → LoggedIn password done)
    (hrest : ServedFrom password (done ++ [served]) served.after rest) :
    ServedFrom password done served.before (served :: rest) where
  privileged before next rest' heq hprivileged := by
    cases before with
    | nil =>
        obtain ⟨rfl, -⟩ := List.cons.inj heq
        simpa using hwork hprivileged
    | cons first before =>
        obtain ⟨rfl, hrest'⟩ := List.cons.inj heq
        rw [List.append_cons]
        exact hrest.privileged before next rest' hrest' hprivileged
  changes next hmem hne := by
    rcases List.mem_cons.mp hmem with rfl | htail
    · rcases hserved with h | h | h
      exacts [.inl h, .inr h, absurd h hne]
    · exact hrest.changes next htail hne
  increases next hmem := by
    rcases List.mem_cons.mp hmem with rfl | htail
    · rcases hserved with h | h | h
      · rw [h.before, h.after]
        decide
      · rw [h.before, h.after]
        decide
      · rw [h]
        exact Int32.le_refl _
    · exact hrest.increases next htail
  starts next hmem := by
    rw [List.head?_cons, Option.mem_some_iff] at hmem
    exact hmem ▸ rfl
  keeps := List.isChain_cons.mpr ⟨hrest.starts, hrest.keeps⟩

theorem servedFrom_serve {password : CStr} {s : Session} {done : List Served}
    (hprogress : Progress password done s.connection_state) (turns : List Turn) :
    ServedFrom password done s.connection_state (serve password s turns).1 := by
  induction turns generalizing s done with
  | nil => exact servedFrom_nil password done _
  | cons turn turns ih =>
      rw [serve]
      split
      · exact servedFrom_nil password done _
      · obtain ⟨hserved, hprivileged⟩ :=
          @serve_buffer_cases password s turn.received hprogress.mem_states
        have hbefore : Progress password done (serve_buffer password s turn.received).1.before :=
          hprogress
        have hwork : (serve_buffer password s turn.received).1.work.Privileged →
            LoggedIn password done := fun h => (hprivileged h ▸ hbefore).loggedIn
        simp only
        split
        · exact servedFrom_cons hserved hwork
            (ih (s := (serve_buffer password s turn.received).2) (hbefore.next hserved))
        · exact servedFrom_cons hserved hwork (servedFrom_nil password _ _)

theorem servedFrom_connection (password : CStr) (connection_state : Int32) (c : Connection) :
    ServedFrom password [] CONTROL_CONNECTION_STATE_CONNECTED
      (handle_connection password connection_state c).1 := by
  simp only [handle_connection]
  split
  · exact servedFrom_serve (s := ⟨CONTROL_CONNECTION_STATE_CONNECTED, none⟩) (.inl rfl) c.turns
  · exact servedFrom_nil password [] _

theorem privileged_after_login (enable_password : CStr) (connection_state : Int32)
    (connections : List Connection) :
    ∀ trace ∈ thread_start enable_password connection_state connections,
      ServedFrom enable_password [] CONTROL_CONNECTION_STATE_CONNECTED trace := by
  induction connections generalizing connection_state with
  | nil => simp [thread_start]
  | cons c connections ih =>
      intro trace htrace
      rw [thread_start, List.mem_cons] at htrace
      rcases htrace with hfirst | htail
      · exact hfirst ▸ servedFrom_connection enable_password connection_state c
      · exact ih _ trace htail

def operator_connection : Connection :=
  ⟨true, ["reload\r\n", "USER operator\r\n", "pass pw2\r\n", "pass pw1\r\n", "reload\r\n", "quit"].map
    fun text => ⟨true, text.toList, true⟩⟩

theorem privileged_operator : ServedFrom "pw1".toList [] CONTROL_CONNECTION_STATE_CONNECTED
    (handle_connection "pw1".toList CONTROL_CONNECTION_STATE_CONNECTED operator_connection).1 :=
  privileged_after_login "pw1".toList CONTROL_CONNECTION_STATE_CONNECTED [operator_connection] _
    (by simp [thread_start])

/-- The session as the client sees it. -/
example : (handle_connection "pw1".toList CONTROL_CONNECTION_STATE_CONNECTED
    operator_connection).1.map (·.work) =
    [.not_logged_in, .user, .login_failure, .login, .do_reload, .goodbye] := by
  decide +kernel

end SnappCollector.Control
