import SnappCollector.CLib.Text
import SnappCollector.Machine.Heap
import SnappCollector.Machine.RwLock

/-!
# Logging

Every thread of the process may call `print_log`, a control worker may replace the regular
expression that lets messages through whatever their priority, and the signal thread and the
options change the log level.  The regular expression is shared under `pcre_log_lock`; the log
level is written under `log_level_mutex`, and `print_log` reads it without.

`pcre_compile`, `pcre_study` and `pcre_exec` are parameters.  `installed` and `printed` are
history: no step reads them.
-/

namespace SnappCollector.Log

open CLib Machine

def LOG_RE_MATCH_STRING_SIZE : Nat := 512

/-! ## Priorities of syslog -/

def LOG_ERR : Nat := 3
def LOG_NOTICE : Nat := 5
def LOG_INFO : Nat := 6
def LOG_DEBUG : Nat := 7

/-- The mask of all priorities up to this one. -/
def LOG_UPTO (priority : Nat) : Nat := 2 ^ (priority + 1) - 1

/-- Whether `syslog` lets a message through. -/
def in_logmask (logmask priority : Nat) : Bool := logmask.testBit (priority % 8)

/-! ## Regular expressions -/

structure Pcre (ρ : Type*) where
  /-- `none` where the pattern is in error -/
  pcre_compile : CStr → Option ρ
  /-- whether there is something to remember for it -/
  pcre_study : ρ → Bool
  pcre_exec : ρ → CStr → Bool

inductive Block (ρ : Type*) where
  | re (re : ρ)
  | extra
deriving DecidableEq

/-- What `vsnprintf` leaves in `check_string`. -/
def check_string (string : CStr) : CStr := string.take (LOG_RE_MATCH_STRING_SIZE - 2)

/-- The part of it that is searched. -/
def subject (string : CStr) : CStr := (check_string string).take (LOG_RE_MATCH_STRING_SIZE / 2)

/-- What an argument of `do_regexp` leaves in `log_re`. -/
def compiled {ρ : Type*} (pcre : Pcre ρ) (arg : CStr) : Option ρ :=
  if 2 ≤ arg.length then pcre.pcre_compile arg else none

/-! ## Threads -/

/-- A call of `print_log`: the text is what the format and its arguments give. -/
structure Message where
  priority : Nat
  string : CStr
deriving DecidableEq

/-- Where a thread is in the functions that log, or change how. -/
inductive Place where
  | idle
  /-- in `print_log`, at `pthread_rwlock_rdlock` -/
  | rdlock (m : Message)
  | check (m : Message)
  | exec (m : Message) (log_re : Nat)
  /-- `priority` is what it has become -/
  | rdunlock (m : Message) (priority : Nat) (installed : CStr)
  | output (m : Message) (priority : Nat) (installed : CStr)
  /-- in `do_regexp`, at `pthread_rwlock_wrlock` -/
  | wrlock (arg : CStr)
  /-- at `pcre_free(log_re)`, if it is not NULL -/
  | free_re (arg : CStr)
  | null_re (arg : CStr)
  | free_extra (arg : CStr)
  | null_extra (arg : CStr)
  | compile (arg : CStr)
  | study
  | wrunlock (cleared_reg_exp : Bool)
  | get_lock
  | get_read
  | get_unlock (fvalue : Int)
  /-- in `set_log_level`, before `next` is printed -/
  | set_lock (new_level : Int) (next : Option Message)
  | set_level (new_level : Int) (next : Option Message)
  | set_mask (new_level : Int) (next : Option Message)
  | set_unlock (next : Option Message)
  /-- freed memory was used, or freed again -/
  | fault
deriving DecidableEq

namespace Place

def reading : Place → Bool
  | check _ | exec _ _ | rdunlock _ _ _ => true
  | _ => false

def writing : Place → Bool
  | free_re _ | null_re _ | free_extra _ | null_extra _ | compile _ | study | wrunlock _ => true
  | _ => false

def inLevel : Place → Bool
  | get_read | get_unlock _ | set_level _ _ | set_mask _ _ | set_unlock _ => true
  | _ => false

end Place

structure Printed where
  message : Message
  /-- the argument of the last `do_regexp` before `log_re` was read -/
  installed : CStr
  /-- what was written, and with which priority -/
  output : Option (Nat × CStr)
deriving DecidableEq

structure State (ρ : Type*) (n : Nat) where
  thread : Fin n → Place
  pcre_log_lock : RwLock (Fin n)
  log_re : Option Nat
  log_re_extra : Option Nat
  heap : Heap (Block ρ)
  log_level_mutex : Option (Fin n)
  log_level : Int
  logmask : Nat
  syslog_ready : Bool
  installed : CStr
  printed : List Printed

section Step

variable {ρ : Type*} {n : Nat}

def State.init (ρ : Type*) (n : Nat) : State ρ n where
  thread _ := .idle
  pcre_log_lock := .free
  log_re := none
  log_re_extra := none
  heap := .empty
  log_level_mutex := none
  log_level := LOG_NOTICE
  logmask := LOG_UPTO LOG_NOTICE
  syslog_ready := false
  installed := []
  printed := []

inductive Call where
  | print_log (m : Message)
  | do_regexp (arg : CStr)
  /-- the options `verbose` and `debug` -/
  | option_verbose
  | option_debug
  | sigusr1
  | sigusr2
deriving DecidableEq

inductive Action (n : Nat) where
  | call (i : Fin n) (c : Call)
  | thread (i : Fin n)
  /-- thread `i` is cancelled in `syslog` or `fprintf` -/
  | cancel (i : Fin n)
  /-- `do_deamonize` has opened the log -/
  | syslog_ready
deriving DecidableEq

def Call.start : Call → Place
  | .print_log m => .rdlock m
  | .do_regexp arg => .wrlock arg
  | .option_verbose => .set_lock LOG_INFO none
  | .option_debug => .set_lock LOG_DEBUG none
  | .sigusr1 => .get_lock
  | .sigusr2 => .set_lock LOG_NOTICE (some ⟨LOG_NOTICE, "Got a SIGUSR2\n".toList⟩)

def State.move (s : State ρ n) (i : Fin n) (place : Place) : State ρ n :=
  { s with thread := Function.update s.thread i place }

def next_place : Option Message → Place
  | none => .idle
  | some m => .rdlock m

def State.writes (s : State ρ n) (priority : Nat) : Bool :=
  if s.syslog_ready then in_logmask s.logmask priority else decide ((priority : Int) ≤ s.log_level)

def threadStep (pcre : Pcre ρ) (s : State ρ n) (i : Fin n) : Place → Option (State ρ n)
  | .idle => none
  | .rdlock m =>
      match s.pcre_log_lock.writer with
      | some _ => none
      | none =>
          some { s.move i (.check m) with
            pcre_log_lock := { s.pcre_log_lock with readers := s.pcre_log_lock.readers + 1 } }
  | .check m =>
      match s.log_re with
      | none => some (s.move i (.rdunlock m m.priority s.installed))
      | some id => some (s.move i (.exec m id))
  | .exec m id =>
      match s.heap.get? id with
      | some (.re re) =>
          -- pretend it is an err, and this must be logged
          let priority := if pcre.pcre_exec re (subject m.string) then LOG_ERR else m.priority
          some (s.move i (.rdunlock m priority s.installed))
      | _ => some (s.move i .fault)
  | .rdunlock m priority installed =>
      some { s.move i (.output m priority installed) with
        pcre_log_lock := { s.pcre_log_lock with readers := s.pcre_log_lock.readers - 1 } }
  | .output m priority installed =>
      let output := if s.writes priority then some (priority, check_string m.string) else none
      some { s.move i .idle with printed := s.printed ++ [⟨m, installed, output⟩] }
  | .wrlock arg =>
      if s.pcre_log_lock.writer = none ∧ s.pcre_log_lock.readers = 0 then
        some { s.move i (.free_re arg) with
          pcre_log_lock := { s.pcre_log_lock with writer := some i } }
      else none
  | .free_re arg =>
      match s.log_re with
      | none => some (s.move i (.free_extra arg))
      | some id =>
          match s.heap.free? id with
          | some heap => some { s.move i (.null_re arg) with heap }
          | none => some (s.move i .fault)
  | .null_re arg => some { s.move i (.free_extra arg) with log_re := none }
  | .free_extra arg =>
      match s.log_re_extra with
      | none => some (s.move i (.compile arg))
      | some id =>
          match s.heap.free? id with
          | some heap => some { s.move i (.null_extra arg) with heap }
          | none => some (s.move i .fault)
  | .null_extra arg => some { s.move i (.compile arg) with log_re_extra := none }
  | .compile arg =>
      if 2 ≤ arg.length then
        match pcre.pcre_compile arg with
        | none =>
            some { s.move i (.wrunlock false) with log_re := none, installed := arg }
        | some re =>
            some { s.move i .study with
              log_re := some s.heap.next, heap := s.heap.alloc (.re re), installed := arg }
      else some { s.move i (.wrunlock true) with installed := arg }
  | .study =>
      match s.log_re.bind s.heap.get? with
      | some (.re re) =>
          if pcre.pcre_study re then
            some { s.move i (.wrunlock false) with
              log_re_extra := some s.heap.next, heap := s.heap.alloc .extra }
          else some { s.move i (.wrunlock false) with log_re_extra := none }
      | _ => some (s.move i .fault)
  | .wrunlock cleared_reg_exp =>
      let string := if cleared_reg_exp then "regexp disabled\n" else "After setting logregexp\n"
      some { s.move i (.rdlock ⟨LOG_NOTICE, string.toList⟩) with
        pcre_log_lock := { s.pcre_log_lock with writer := none } }
  | .get_lock =>
      match s.log_level_mutex with
      | some _ => none
      | none => some { s.move i .get_read with log_level_mutex := some i }
  | .get_read => some (s.move i (.get_unlock s.log_level))
  | .get_unlock fvalue =>
      some { s.move i (.set_lock (fvalue + 1) (some ⟨LOG_NOTICE, "Got a SIGUSR1\n".toList⟩)) with
        log_level_mutex := none }
  | .set_lock new_level next =>
      if new_level < 0 ∨ 8 ≤ new_level then some (s.move i (next_place next))
      else
        match s.log_level_mutex with
        | some _ => none
        | none => some { s.move i (.set_level new_level next) with log_level_mutex := some i }
  | .set_level new_level next =>
      some { s.move i (.set_mask new_level next) with log_level := new_level }
  | .set_mask new_level next =>
      some { s.move i (.set_unlock next) with logmask := LOG_UPTO new_level.toNat }
  | .set_unlock next => some { s.move i (next_place next) with log_level_mutex := none }
  | .fault => none

def step (pcre : Pcre ρ) (s : State ρ n) : Action n → Option (State ρ n)
  | .call i c => if s.thread i = .idle then some (s.move i c.start) else none
  | .thread i => threadStep pcre s i (s.thread i)
  | .cancel i =>
      match s.thread i with
      | .output .. => some (s.move i .idle)
      | _ => none
  | .syslog_ready => some { s with syslog_ready := true }

end Step

end SnappCollector.Log
