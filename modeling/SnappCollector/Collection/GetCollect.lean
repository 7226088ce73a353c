import SnappCollector.Collection.CleanValue
import SnappCollector.Collection.Types
import SnappCollector.Writer.Tables

/-!
# Polling a host

`get_collect` asks one host for every collection that a class has on it and hands
the answers to the writer.  What comes from outside, the SNMP library and the
clock, is an `Agent`.
-/

namespace SnappCollector.Collection

open CLib Writer

abbrev Oid := List Nat

inductive VariableType where
  | ENDOFMIBVIEW
  | NOSUCHOBJECT
  | NOSUCHINSTANCE
  /-- any type that carries a value -/
  | value
deriving DecidableEq

structure Variable where
  type : VariableType
  text : CStr

inductive Response where
  /-- `STAT_SUCCESS`, and whether `errstat` is `SNMP_ERR_NOERROR` -/
  | success (noerror : Bool) (vars : List Variable)
  | timeout
  | other

structure Request where
  peername : CStr
  community : CStr
  vars : List Oid

structure Agent where
  sess_open : Bool
  read_objid : CStr → Option Oid
  /-- the answer to the request of a collection, by its number -/
  response : Nat → Request → Response
  /-- `time(NULL)` at the handling of that answer -/
  time : Nat → Int
  /-- what the buffer of `push_data` then holds, and the `token` of its conversion -/
  stack : Nat → CStr
  token : Nat → CharPtr

/-! ## The request -/

def SQL_Collection.skipped (c : SQL_Collection) : Bool :=
  c.post_mapping_oid_suffix.length = 0 && c.oid_mapping_sequence_db_id ≠ -1

def oid_string (c : SQL_Collection) (oid : Oid_collection) : CStr :=
  if c.post_mapping_oid_suffix.length ≠ 0 then
    oid.oid_prefix ++ ".".toList ++ c.post_mapping_oid_suffix
  else oid.oid_prefix

def timeticks : Oid := [1, 3, 6, 1, 2, 1, 1, 3, 0]

/-- The variables of the request of a collection, if there is one: it is not
skipped and every OID can be read. -/
def request_variables (read_objid : CStr → Option Oid) (cls : SQL_Collection_Class)
    (c : SQL_Collection) : Option (List Oid) :=
  if c.skipped then none
  else ((cls.oid.map (oid_string c)).mapM read_objid).map (· ++ [timeticks])

/-! ## The response -/

inductive Values where
  | cleaned (snmp_val : List CStr)
  | exception
  /-- the loop read from a pointer that points nowhere -/
  | undefined

def snmp_values : List Variable → Values
  | [] => .cleaned []
  | v :: vars =>
      if v.type = .ENDOFMIBVIEW ∨ v.type = .NOSUCHOBJECT then .exception
      else
        match if v.type = .NOSUCHINSTANCE then some "NAN".toList else get_clean_snmpvalue v.text with
        | none => .undefined
        | some value =>
            match snmp_values vars with
            | .cleaned snmp_val => .cleaned (value :: snmp_val)
            | stopped => stopped

def Clock.update (clock : Clock) (tt : UInt32) (now : Int) : Clock :=
  -- int operands become unsigned next to tt
  if tt ≤ clock.timeticks.toUInt32 ∨ clock.timeticks = 0 ∨ tt - clock.timeticks.toUInt32 > 6000 then
    { timeticks := tt.toInt32, mytime := Int32.ofInt now }
  else clock

def Clock.totaltime (clock : Clock) (tt : UInt32) : UInt32 :=
  (tt - clock.timeticks.toUInt32) / 100

/-- `finaltime`, as an integer: a double holds it exactly. -/
def Clock.finaltime (clock : Clock) (tt : UInt32) : Int :=
  clock.mytime.toInt + (clock.totaltime tt).toNat

def append_words (first : CStr) (words : List CStr) : CStr :=
  words.foldl (fun text word => text ++ ":".toList ++ word) first

def rrd_values (size : Nat) (snmp_val : List CStr) : CStr :=
  append_words (snmp_val.headD []) ((snmp_val.take size).drop 1)

def rrd_template (oid : List Oid_collection) : CStr :=
  append_words ((oid.map (·.ds_name)).headD []) ((oid.map (·.ds_name)).drop 1)

theorem append_words_eq (first : CStr) (words : List CStr) :
    append_words first words = joinWith ':' (first :: words) := by
  induction words generalizing first with
  | nil => simp [append_words]
  | cons word words ih =>
      have hnext : append_words first (word :: words) =
          append_words (first ++ ":".toList ++ word) words := rfl
      rw [hnext, ih, joinWith_cons, joinWith_cons]
      simp

theorem rrd_values_eq {size : Nat} {snmp_val : List CStr} (hsize : 0 < size)
    (hval : snmp_val ≠ []) : rrd_values size snmp_val = joinWith ':' (snmp_val.take size) := by
  obtain ⟨value, values, rfl⟩ := List.exists_cons_of_ne_nil hval
  obtain ⟨size, rfl⟩ := Nat.exists_eq_succ_of_ne_zero hsize.ne'
  rw [rrd_values, append_words_eq]
  rfl

theorem rrd_template_eq {oid : List Oid_collection} (hoid : oid ≠ []) :
    rrd_template oid = joinWith ':' (oid.map (·.ds_name)) := by
  obtain ⟨first, rest, rfl⟩ := List.exists_cons_of_ne_nil hoid
  rw [rrd_template, append_words_eq]
  rfl

inductive Continuation where
  | next
  | done
  | undefined
deriving DecidableEq

/-- What `get_collect` did for one collection. -/
structure Outcome where
  request : Option Request
  push : Option PushCall
  clock : Clock
  /-- `fvalue` was set to -1 -/
  failed : Bool
  continuation : Continuation

/-- The part of the loop between the cleaned values and the next collection, for
the collection with number `i`. -/
def store_values (agent : Agent) (cls : SQL_Collection_Class) (clock : Clock) (i : Nat)
    (c : SQL_Collection) (request : Request) (snmp_val : List CStr) : Outcome :=
  let outcome : Outcome := ⟨some request, none, clock, false, .next⟩
  if snmp_val.length = cls.oid.length + 1 then
    let tt := (atoi (snmp_val.getD cls.oid.length [])).toUInt32
    if tt = -1 then { outcome with continuation := .done }
    else
      let clock := clock.update tt (agent.time i)
      if cls.oid = [] then
        -- the first OID of an empty vector
        { outcome with clock, continuation := .undefined }
      else
        { outcome with
          clock
          push := some
            { in_time := .fin (clock.finaltime tt)
              filename := cls.rrd_dir ++ c.rrd_filename
              in_rrd_template := rrd_template cls.oid
              values := rrd_values cls.oid.length snmp_val
              stack := agent.stack i
              token := agent.token i } }
  else outcome

def handle_response (agent : Agent) (cls : SQL_Collection_Class) (clock : Clock) (i : Nat)
    (c : SQL_Collection) (request : Request) : Response → Outcome
  | .success true vars =>
      match snmp_values vars with
      | .cleaned snmp_val => store_values agent cls clock i c request snmp_val
      | .exception => ⟨some request, none, clock, true, .next⟩
      | .undefined => ⟨some request, none, clock, false, .undefined⟩
  | .success false _ => ⟨some request, none, clock, false, .next⟩
  | .timeout | .other => ⟨some request, none, clock, true, .done⟩

def collect (agent : Agent) (cls : SQL_Collection_Class) (host : Host_Info) (clock : Clock)
    (i : Nat) (c : SQL_Collection) : Outcome :=
  match request_variables agent.read_objid cls c with
  | none => ⟨none, none, clock, !c.skipped, .next⟩
  | some vars =>
      let request : Request := ⟨host.ip_address, host.community, vars⟩
      handle_response agent cls clock i c request (agent.response i request)

theorem handle_response_request (agent : Agent) (cls : SQL_Collection_Class) (clock : Clock) (i : Nat)
    (c : SQL_Collection) (request : Request) (response : Response) :
    (handle_response agent cls clock i c request response).request = some request := by
  cases response with
  | success noerror vars =>
      cases noerror with
      | false => rfl
      | true =>
          simp only [handle_response]
          cases snmp_values vars with
          | cleaned snmp_val =>
              simp only [store_values]
              split_ifs <;> rfl
          | exception => rfl
          | undefined => rfl
  | timeout => rfl
  | other => rfl

theorem collect_request (agent : Agent) (cls : SQL_Collection_Class) (host : Host_Info)
    (clock : Clock) (i : Nat) (c : SQL_Collection) :
    (collect agent cls host clock i c).request.map (·.vars) =
      request_variables agent.read_objid cls c := by
  simp only [collect]
  cases request_variables agent.read_objid cls c with
  | none => rfl
  | some vars => simp [handle_response_request]

def collect_all (agent : Agent) (cls : SQL_Collection_Class) (host : Host_Info) :
    Clock → Nat → List SQL_Collection → List Outcome
  | _, _, [] => []
  | clock, i, c :: cs =>
      let outcome := collect agent cls host clock i c
      outcome ::
        match outcome.continuation with
        | .next => collect_all agent cls host outcome.clock (i + 1) cs
        | _ => []

def get_collect (agent : Agent) (host : Host_Info) (cls : SQL_Collection_Class)
    (sql_host : SQL_Host) (clock : Clock) : List Outcome × Int :=
  if agent.sess_open then
    let outcomes := collect_all agent cls host clock 0 sql_host.collection
    (outcomes, if outcomes.any (·.failed) then -1 else 0)
  else ([], -1)

end SnappCollector.Collection
