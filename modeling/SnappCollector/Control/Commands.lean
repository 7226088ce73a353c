import SnappCollector.CLib.Text

/-!
# The control connections

A worker of the control socket serves one connection after the other.  On each it
reads a buffer, compares its text with the commands it knows, and switches on the
command and the state of the connection.  What is received, and which answers can
be sent, is up to the client.
-/

namespace SnappCollector.Control

open CLib

def CONTROL_BUF_SIZE : Nat := 1024

def CONTROL_CONNECTION_STATE_CONNECTED : Int32 := 1
def CONTROL_CONNECTION_STATE_USERNAME_RECEIVED : Int32 := 2
def CONTROL_CONNECTION_STATE_AUTHENTICATED : Int32 := 3

def CONTROL_COMMAND_QUIT : Int32 := 0
def CONTROL_COMMAND_USER : Int32 := 1
def CONTROL_COMMAND_PASS : Int32 := 2
def CONTROL_COMMAND_RELOAD : Int32 := 3
def CONTROL_COMMAND_STATUS : Int32 := 4
def CONTROL_COMMAND_HELP : Int32 := 5
def CONTROL_COMMAND_LOGREGEXP : Int32 := 6

/-! ## Commands -/

/-- The text at the start of a buffer: what stands before its first NUL. -/
def text_of (buf : List Char) : CStr := buf.takeWhile (· ≠ '\x00')

def remove_line_ends (recv_buf : List Char) : List Char :=
  recv_buf.map fun c => if c = '\n' ∨ c = '\r' then '\x00' else c

/-- `command`, and the offset that `arg` is set to. -/
def read_command (recv_buf : CStr) : Int32 × Option Nat :=
  if strcasestr recv_buf "quit".toList = some 0 then (CONTROL_COMMAND_QUIT, none)
  else if strcaseeq recv_buf "reload".toList then (CONTROL_COMMAND_RELOAD, none)
  else if strcasestr recv_buf "status".toList = some 0 then (CONTROL_COMMAND_STATUS, none)
  else if strcasestr recv_buf "help".toList = some 0 then (CONTROL_COMMAND_HELP, none)
  else if strcasestr recv_buf "user ".toList = some 0 then
    if 8 ≤ recv_buf.length then (CONTROL_COMMAND_USER, some 5) else (-1, none)
  else if strcasestr recv_buf "pass ".toList = some 0 then
    if 8 ≤ recv_buf.length then (CONTROL_COMMAND_PASS, some 5) else (-1, none)
  else if strcasestr recv_buf "logregexp ".toList = some 0 then
    if 10 ≤ recv_buf.length then (CONTROL_COMMAND_LOGREGEXP, some 10) else (-1, none)
  else (-1, none)

inductive Work where
  | goodbye
  | user
  | login
  | login_failure
  | do_reload
  | do_regexp (arg : CStr)
  | send_status
  | send_help
  | not_logged_in
  | not_recognized
  /-- `arg` has not been set -/
  | undefined
deriving DecidableEq

def packed (command connection_state : Int32) : Int32 := command <<< 8 ||| connection_state

def dispatch (enable_password : CStr) (recv_buf : List Char) (arg : Option Nat)
    (command connection_state : Int32) : Work × Int32 :=
  let key := packed command connection_state
  if key = packed CONTROL_COMMAND_QUIT CONTROL_CONNECTION_STATE_CONNECTED ∨
      key = packed CONTROL_COMMAND_QUIT CONTROL_CONNECTION_STATE_USERNAME_RECEIVED ∨
      key = packed CONTROL_COMMAND_QUIT CONTROL_CONNECTION_STATE_AUTHENTICATED then
    (.goodbye, connection_state)
  else if key = packed CONTROL_COMMAND_USER CONTROL_CONNECTION_STATE_CONNECTED then
    (.user, CONTROL_CONNECTION_STATE_USERNAME_RECEIVED)
  else if key = packed CONTROL_COMMAND_PASS CONTROL_CONNECTION_STATE_USERNAME_RECEIVED then
    match arg with
    | none => (.undefined, connection_state)
    | some arg =>
        if enable_password = text_of (recv_buf.drop arg) then
          (.login, CONTROL_CONNECTION_STATE_AUTHENTICATED)
        else (.login_failure, connection_state)
  else if key = packed CONTROL_COMMAND_RELOAD CONTROL_CONNECTION_STATE_AUTHENTICATED then
    (.do_reload, connection_state)
  else if key = packed CONTROL_COMMAND_LOGREGEXP CONTROL_CONNECTION_STATE_AUTHENTICATED then
    match arg with
    | none => (.undefined, connection_state)
    | some arg => (.do_regexp (text_of (recv_buf.drop arg)), connection_state)
  else if key = packed CONTROL_COMMAND_STATUS CONTROL_CONNECTION_STATE_CONNECTED ∨
      key = packed CONTROL_COMMAND_STATUS CONTROL_CONNECTION_STATE_USERNAME_RECEIVED ∨
      key = packed CONTROL_COMMAND_STATUS CONTROL_CONNECTION_STATE_AUTHENTICATED then
    (.send_status, connection_state)
  else if key = packed CONTROL_COMMAND_HELP CONTROL_CONNECTION_STATE_CONNECTED ∨
      key = packed CONTROL_COMMAND_HELP CONTROL_CONNECTION_STATE_USERNAME_RECEIVED ∨
      key = packed CONTROL_COMMAND_HELP CONTROL_CONNECTION_STATE_AUTHENTICATED then
    (.send_help, connection_state)
  else if key = packed CONTROL_COMMAND_RELOAD CONTROL_CONNECTION_STATE_CONNECTED ∨
      key = packed CONTROL_COMMAND_RELOAD CONTROL_CONNECTION_STATE_USERNAME_RECEIVED then
    (.not_logged_in, connection_state)
  else (.not_recognized, connection_state)

/-! ## Connections -/

structure Turn where
  prompt_sent : Bool
  /-- the result of `recv`, nothing where it failed or the client is gone -/
  received : List Char
  answer_sent : Bool
deriving DecidableEq

structure Session where
  connection_state : Int32
  /-- an offset into the buffer -/
  arg : Option Nat
deriving DecidableEq

structure Served where
  received : List Char
  command : Int32
  argument : Option CStr
  before : Int32
  work : Work
  after : Int32
deriving DecidableEq

def serve_buffer (enable_password : CStr) (s : Session) (received : List Char) :
    Served × Session :=
  let recv_buf := remove_line_ends received
  let (command, offset) := read_command (text_of recv_buf)
  let arg := offset <|> s.arg
  let (work, after) := dispatch enable_password recv_buf arg command s.connection_state
  (⟨received, command, offset.map fun arg => text_of (recv_buf.drop arg), s.connection_state, work,
    after⟩, ⟨after, arg⟩)

/-- Whether the loop goes on: only some branches look at the result of `send`. -/
def goes_on (work : Work) (answer_sent : Bool) : Bool :=
  match work with
  | .goodbye | .undefined => false
  | .send_status | .send_help | .not_recognized => answer_sent
  | .user | .login | .login_failure | .do_reload | .do_regexp _ | .not_logged_in => true

def serve (enable_password : CStr) : Session → List Turn → List Served × Int32
  | s, [] => ([], s.connection_state)
  | s, turn :: turns =>
      if turn.prompt_sent = false ∨ turn.received = [] then ([], s.connection_state)
      else
        let (served, s') := serve_buffer enable_password s turn.received
        if goes_on served.work turn.answer_sent then
          let (rest, connection_state) := serve enable_password s' turns
          (served :: rest, connection_state)
        else ([served], served.after)

/-- A connection: whether the greeting could be sent, and the turns. -/
structure Connection where
  hello_sent : Bool
  turns : List Turn

/-- `connection_state` belongs to the worker, and holds what the last connection left. -/
def handle_connection (enable_password : CStr) (_connection_state : Int32) (c : Connection) :
    List Served × Int32 :=
  let s : Session := ⟨CONTROL_CONNECTION_STATE_CONNECTED, none⟩
  if c.hello_sent then serve enable_password s c.turns else ([], s.connection_state)

def thread_start (enable_password : CStr) : Int32 → List Connection → List (List Served)
  | _, [] => []
  | connection_state, c :: connections =>
      let (served, connection_state) := handle_connection enable_password connection_state c
      served :: thread_start enable_password connection_state connections

end SnappCollector.Control
