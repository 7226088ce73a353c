import Mathlib.Logic.Function.Basic
import SnappCollector.CLib.Process
import SnappCollector.Collection.GetCollect
import SnappCollector.Data.Checked

/-!
# Sessions and PDUs

What the SNMP library allocates for its callers: they have to close each session and to free
each PDU once, but for a request that they have it send, which the library takes over.  The
library is a parameter, and `Library.Rules` are the rules of its manual.  That memory never runs
out is one of them: `snmp_pdu_create` and `snmp_add_null_var` succeed.
-/

namespace SnappCollector.Collection.Snmp

open CLib Data

structure Session where
  peername : CStr
  community : CStr

/-- A request with the names that it asks for, or a response. -/
inductive Pdu (α : Type) where
  | request (vars : List Oid)
  /-- whether `errstat` is `SNMP_ERR_NOERROR`, and the variables -/
  | response (noerror : Bool) (vars : List α)

inductive Status where
  | STAT_SUCCESS
  | STAT_TIMEOUT
  | other
deriving DecidableEq

/-- What comes back for a request: a call without success may leave a PDU, too. -/
structure Answer (α : Type) where
  status : Status
  response : Option (Bool × List α)

/-! ## The library -/

/-- A call that works on the memory of the library, which may go wrong in it. -/
abbrev Client (μ : Type) : Type → Type := Checked μ Death

/-- The calls of the library, and the sessions and PDUs that its memory holds for the callers. -/
structure Library (α μ : Type) where
  sessions : μ → Nat → Option Session
  pdus : μ → Nat → Option (Pdu α)
  snmp_sess_open : Bool → Session → Client μ (Option Nat)
  snmp_sess_close : Nat → Client μ Unit
  snmp_pdu_create : Client μ Nat
  snmp_free_pdu : Nat → Client μ Unit
  snmp_add_null_var : Nat → Oid → Client μ Unit
  /-- the request that goes out, its status, and the `response` that it leaves -/
  snmp_sess_synch_response :
    Nat → Nat → (Request → Answer α) → Client μ (Request × Status × Option Nat)

namespace Library

variable {α μ : Type}

/-- From `m` the call comes back with `a`, and leaves these sessions and PDUs. -/
def Leaves {β : Type} (lib : Library α μ) (m : μ) (call : Client μ β) (a : β)
    (sessions : Nat → Option Session) (pdus : Nat → Option (Pdu α)) : Prop :=
  ∃ m', call m = some (m', .returned a) ∧ lib.sessions m' = sessions ∧ lib.pdus m' = pdus

/-- Whom a session and a PDU belong to.  Nothing is said about a call that gets a session or a
PDU that is not there. -/
structure Rules (lib : Library α μ) : Prop where
  opened : ∀ m session, ∃ sp, lib.sessions m sp = none ∧
    lib.Leaves m (lib.snmp_sess_open true session) (some sp)
      (Function.update (lib.sessions m) sp (some session)) (lib.pdus m)
  not_opened : ∀ m session,
    lib.Leaves m (lib.snmp_sess_open false session) none (lib.sessions m) (lib.pdus m)
  closed : ∀ m sp session, lib.sessions m sp = some session →
    lib.Leaves m (lib.snmp_sess_close sp) () (Function.update (lib.sessions m) sp none) (lib.pdus m)
  created : ∀ m, ∃ req, lib.pdus m req = none ∧
    lib.Leaves m lib.snmp_pdu_create req (lib.sessions m)
      (Function.update (lib.pdus m) req (some (.request [])))
  freed : ∀ m id pdu, lib.pdus m id = some pdu →
    lib.Leaves m (lib.snmp_free_pdu id) () (lib.sessions m) (Function.update (lib.pdus m) id none)
  added : ∀ m req vars name, lib.pdus m req = some (.request vars) →
    lib.Leaves m (lib.snmp_add_null_var req name) () (lib.sessions m)
      (Function.update (lib.pdus m) req (some (.request (vars ++ [name]))))
  /-- without a response, the request is gone -/
  unanswered : ∀ m sp session req vars answer, lib.sessions m sp = some session →
    lib.pdus m req = some (.request vars) →
    (answer ⟨session.peername, session.community, vars⟩).response = none →
    lib.Leaves m (lib.snmp_sess_synch_response sp req answer)
      (⟨session.peername, session.community, vars⟩,
        (answer ⟨session.peername, session.community, vars⟩).status, none)
      (lib.sessions m) (Function.update (lib.pdus m) req none)
  /-- with one, it belongs to the caller -/
  answered : ∀ m sp session req vars answer noerror arrived, lib.sessions m sp = some session →
    lib.pdus m req = some (.request vars) →
    (answer ⟨session.peername, session.community, vars⟩).response = some (noerror, arrived) →
    ∃ response, Function.update (lib.pdus m) req none response = none ∧
      lib.Leaves m (lib.snmp_sess_synch_response sp req answer)
        (⟨session.peername, session.community, vars⟩,
          (answer ⟨session.peername, session.community, vars⟩).status, some response)
        (lib.sessions m)
        (Function.update (Function.update (lib.pdus m) req none) response
          (some (.response noerror arrived)))

end Library

/-! ## What its callers do with a response -/

section Responses

variable {α μ : Type} (lib : Library α μ)

def read_response (response : Option Nat) : Client μ (Bool × List α) :=
  .access fun m =>
    match response.bind (lib.pdus m) with
    | some (.response noerror vars) => some (m, noerror, vars)
    | _ => none

/-- `if (response) { snmp_free_pdu(response); response=NULL; }` -/
def free_response : Option Nat → Client μ (Option Nat)
  | none => return none
  | some response => do
      lib.snmp_free_pdu response
      return none

def done (sp : Nat) (response : Option Nat) : Client μ Unit := do
  let _ ← free_response lib response
  lib.snmp_sess_close sp

end Responses

/-! ## Polling a host -/

/-- The answer to the request of a collection, and what a request that fails leaves in
`response`. -/
def answer (agent : Agent) (left : Nat → Option (Bool × List Variable)) (i : Nat)
    (request : Request) : Answer Variable :=
  match agent.response i request with
  | .success noerror vars => ⟨.STAT_SUCCESS, some (noerror, vars)⟩
  | .timeout => ⟨.STAT_TIMEOUT, left i⟩
  | .other => ⟨.other, left i⟩

section Polling

variable {μ : Type} (lib : Library Variable μ)

def fill_pdu (read_objid : CStr → Option Oid) (req : Nat) : List CStr → Client μ Bool
  | [] => return true
  | oid_string :: rest =>
      match read_objid oid_string with
      | none => return false
      | some root => do
          lib.snmp_add_null_var req root
          fill_pdu read_objid req rest

def handle_status (agent : Agent) (cls : SQL_Collection_Class) (clock : Clock) (i : Nat)
    (c : SQL_Collection) (request : Request) (response : Option Nat) :
    Status → Client μ (Outcome × Option Nat)
  | .STAT_SUCCESS => do
      let (noerror, vars) ← read_response lib response
      return (handle_response agent cls clock i c request (.success noerror vars), response)
  | .STAT_TIMEOUT => return (handle_response agent cls clock i c request .timeout, response)
  | .other => return (handle_response agent cls clock i c request .other, response)

def collect (agent : Agent) (left : Nat → Option (Bool × List Variable))
    (cls : SQL_Collection_Class) (sp : Nat) (clock : Clock) (i : Nat) (response : Option Nat)
    (c : SQL_Collection) : Client μ (Outcome × Option Nat) :=
  if c.skipped then return (⟨none, none, clock, false, .next⟩, response)
  else do
    let req ← lib.snmp_pdu_create
    if ← fill_pdu lib agent.read_objid req (cls.oid.map (oid_string c)) then
      lib.snmp_add_null_var req timeticks
      let (request, status, response) ← lib.snmp_sess_synch_response sp req (answer agent left i)
      handle_status lib agent cls clock i c request response status
    else
      lib.snmp_free_pdu req
      return (⟨none, none, clock, true, .next⟩, response)

def collect_all (agent : Agent) (left : Nat → Option (Bool × List Variable))
    (cls : SQL_Collection_Class) (sp : Nat) :
    Clock → Nat → Option Nat → List SQL_Collection → Client μ (List Outcome)
  | _, _, response, [] => do
      done lib sp response
      return []
  | clock, i, response, c :: cs => do
      Checked.check response.isNone
      let (outcome, response) ← collect lib agent left cls sp clock i response c
      match outcome.continuation with
      | .next => do
          let response ← free_response lib response
          let outcomes ← collect_all agent left cls sp outcome.clock (i + 1) response cs
          return outcome :: outcomes
      | .done => do
          done lib sp response
          return [outcome]
      | .undefined => Checked.lift (.died .fault)

def get_collect (agent : Agent) (left : Nat → Option (Bool × List Variable)) (host : Host_Info)
    (cls : SQL_Collection_Class) (sql_host : SQL_Host) (clock : Clock) :
    Client μ (List Outcome × Int) := do
  match ← lib.snmp_sess_open agent.sess_open ⟨host.ip_address, host.community⟩ with
  | none => return ([], -1)
  | some sp => do
      let outcomes ← collect_all lib agent left cls sp clock 0 none sql_host.collection
      return (outcomes, if outcomes.any (·.failed) then -1 else 0)

structure Poll where
  agent : Agent
  left : Nat → Option (Bool × List Variable)
  host : Host_Info
  cls : SQL_Collection_Class
  sql_host : SQL_Host
  clock : Clock

def Poll.run (p : Poll) : Client μ (List Outcome × Int) :=
  get_collect lib p.agent p.left p.host p.cls p.sql_host p.clock

/-- The loop of a worker, for the hosts that it takes out of the queue before it ends. -/
def thread_start (polls : List Poll) : Client μ (List (List Outcome × Int)) :=
  polls.mapM (Poll.run lib)

end Polling

end SnappCollector.Collection.Snmp
