import Mathlib.Data.Char
import Mathlib.Data.List.Lex
import Mathlib.Data.List.Sort
import SnappCollector.CLib.Process
import SnappCollector.Collection.GetCollect
import SnappCollector.Config.Tables
import SnappCollector.Config.Xml

/-!
# Loading the OID tables of the hosts

`load_oid_table` walks the table of every OID of a host with GETBULK requests, and
`load_host_tables` does so for all hosts at once, with a thread for each.  The agents
answer what they like; a walk that has not ended when the fuel runs out is pending.
-/

namespace SnappCollector.Hosts

open CLib Collection Config Data

/-! ## The value of a variable -/

def is_space (c : Char) : Bool := c = ' ' || ('\t' ≤ c && c ≤ '\r')

/-- The text behind `[^:]+:\s*"?` at the first place where that matches; what follows in
the pattern matches anywhere. -/
def value_match (check_string : CStr) : Option CStr :=
  match (check_string.dropWhile (· = ':')).dropWhile (· ≠ ':') with
  | [] => none
  | _ :: rest =>
      match rest.dropWhile is_space with
      | '"' :: value => some value
      | value => some value

/-- `before` is the character that the memory holds in front of an empty `out_string`.
A `resize` to -1 throws. -/
def extract_value_from_raw (before : Char) (raw : CStr) : Course Death CStr :=
  let check_string := raw.take (STD_STRING_SIZE - 1)
  let out_string := (value_match check_string).getD []
  if '"' = out_string.getLastD before then
    if out_string = [] then .died .terminate else .returned out_string.dropLast
  else .returned out_string

/-! ## The suffix of an instance -/

def search_string (first : CStr) : CStr := first.drop (first.length * 2 / 3)

/-- `s.substr(s.find_last_of(c)+1)`: all of it if there is no `c`. -/
def substr_after_last (c : Char) (s : CStr) : CStr := (s.reverse.takeWhile (· ≠ c)).reverse

/-- `substr` throws if it starts behind the end. -/
def suffix_str (first temp_string1 : CStr) : Course Death CStr :=
  match strstr temp_string1 (search_string first) with
  | some found =>
      if found + (search_string first).length + 1 ≤ temp_string1.length then
        .returned (temp_string1.drop (found + (search_string first).length + 1))
      else .died .terminate
  | none => .returned (substr_after_last '.' temp_string1)

/-! ## The walk over a table -/

/-- A variable of a response to GETBULK: its name, what `snprint_objid` writes for it, and
the character in front of an empty string while it is handled. -/
structure BulkVariable extends Variable where
  name : Oid
  objid : CStr
  before : Char

inductive BulkResponse where
  /-- `STAT_SUCCESS`, and whether `errstat` is `SNMP_ERR_NOERROR` -/
  | success (noerror : Bool) (vars : List BulkVariable)
  | timeout
  | other

structure TableAgent where
  read_objid : CStr → Option Oid
  sess_open : CStr → Bool
  /-- the answer to a request for a table, by its number and its name -/
  response : CStr → Nat → Oid → BulkResponse

structure Walk where
  running : Bool
  name : Oid
  suffix_of : AList fun _ : CStr => CStr
  value_of : AList fun _ : CStr => CStr

/-- The body of the loop over the variables; `last` says that no other variable follows. -/
def walk_variable (first : CStr) (root : Oid) (last : Bool) (v : BulkVariable) (w : Walk) :
    Course Death Walk :=
  if ¬root <+: v.name then .returned { w with running := false }
  else if v.type = .value then do
    let suffix ← suffix_str first v.objid
    let value ← extract_value_from_raw v.before v.text
    return { w with
      suffix_of := w.suffix_of.insert value suffix
      value_of := w.value_of.insert suffix value
      name := if last then v.name else w.name }
  else .returned { w with running := false }

def walk_variables (first : CStr) (root : Oid) : List BulkVariable → Walk → Course Death Walk
  | [], w => .returned w
  | v :: vars, w => do
      let w ← walk_variable first root vars.isEmpty v w
      walk_variables first root vars w

def walk (agent : TableAgent) (first : CStr) (root : Oid) : Nat → Nat → Walk → Course Death Walk
  | 0, _, _ => .pending
  | fuel + 1, i, w =>
      match agent.response first i w.name with
      | .success true vars => do
          let w ← walk_variables first root vars w
          if w.running then walk agent first root fuel (i + 1) w else return w
      | .success false _ => .returned { w with running := false }
      | .timeout => .returned { w with running := false }
      | .other => .returned { w with running := false }

/-! ## The tables of a host -/

def in_order (oid_table : AList fun _ : CStr => OID_Value_Table) :
    List (Sigma fun _ : CStr => OID_Value_Table) :=
  oid_table.entries.insertionSort fun x y => x.1 ≤ y.1

def load_oid_tables (agent : TableAgent) (fuel : Nat) :
    List (Sigma fun _ : CStr => OID_Value_Table) → Host_Info → Course Death (Int32 × Host_Info)
  | [], info => .returned (0, info)
  | ⟨first, table⟩ :: rest, info => do
      assert (first = table.oid)
      match agent.read_objid first with
      | none => return (-1, info)
      | some root =>
          if agent.sess_open first then
            let w ← walk agent first root fuel 0 ⟨true, root, table.suffix_of, ∅⟩
            load_oid_tables agent fuel rest { info with
              oid_table := info.oid_table.insert first { table with suffix_of := w.suffix_of } }
          else return (-1, info)

def load_oid_table (agent : TableAgent) (fuel : Nat) (info : Host_Info) :
    Course Death (Int32 × Host_Info) :=
  load_oid_tables agent fuel (in_order info.oid_table) info

def thread_start (agent : TableAgent) (fuel : Nat) (info : Host_Info) : Course Death Host_Info := do
  let result ← load_oid_table agent fuel info
  return if 0 ≤ result.1 then { result.2 with mapping_done := 1 } else result.2

/-! ## The tables of all hosts -/

structure TableAnswers where
  agent : Nat → TableAgent
  sem_wait : Nat → Bool
  pthread_create : Nat → Bool

def create_thread (answers : TableAnswers) (i : Nat) : Course Death Unit := do
  assert (answers.sem_wait i)
  assert (answers.pthread_create i)

def with_tables (host_table : Host_Info_Table) (host : List Host_Info) : Host_Info_Table where
  host := host ++ host_table.host.drop host.length
  db_id_to_index := host_table.db_id_to_index
  index_lt h := by
    have hlt := host_table.index_lt h
    rw [List.length_append, List.length_drop]
    omega

def load_host_tables (answers : TableAnswers) (fuel : Nat) (host_table : Host_Info_Table) :
    Course Death Host_Info_Table := do
  (List.range host_table.host.length).forM (create_thread answers)
  let host ← Course.all (host_table.host.zipIdx.map fun (info, i) =>
    thread_start (answers.agent i) fuel info)
  return with_tables host_table host

end SnappCollector.Hosts
