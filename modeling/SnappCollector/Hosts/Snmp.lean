import SnappCollector.Collection.Snmp
import SnappCollector.Hosts.OidTable

/-!
# The sessions and PDUs of a table walk

`load_oid_table` opens a session for each OID of the host and creates a PDU for each request.
A walk that has not ended when the fuel runs out is about to send its next request.
-/

namespace SnappCollector.Hosts.Snmp

open CLib Collection Collection.Snmp Data

section

variable {μ : Type} (lib : Library BulkVariable μ) (agent : TableAgent)
  (left : CStr → Nat → Option (Bool × List BulkVariable))

/-- The answer to a request for a table, and what a request that fails leaves in `response`. -/
def answer (first : CStr) (i : Nat) (request : Request) : Answer BulkVariable :=
  match agent.response first i (request.vars.headD []) with
  | .success noerror vars => ⟨.STAT_SUCCESS, some (noerror, vars)⟩
  | .timeout => ⟨.STAT_TIMEOUT, left first i⟩
  | .other => ⟨.other, left first i⟩

def handle_status (first : CStr) (root : Oid) (w : Walk) (response : Option Nat) :
    Status → Client μ Walk
  | .STAT_SUCCESS => do
      let (noerror, vars) ← read_response lib response
      if noerror then Checked.lift (walk_variables first root vars w)
      else return { w with running := false }
  | .STAT_TIMEOUT => return { w with running := false }
  | .other => return { w with running := false }

def walk (first : CStr) (root : Oid) (sp : Nat) : Nat → Nat → Walk → Client μ Walk
  | 0, _, _ => Checked.lift .pending
  | fuel + 1, i, w => do
      let pdu ← lib.snmp_pdu_create
      lib.snmp_add_null_var pdu w.name
      let (_, status, response) ← lib.snmp_sess_synch_response sp pdu (answer agent left first i)
      let w ← handle_status lib first root w response status
      let response ← free_response lib response
      if w.running then walk first root sp fuel (i + 1) w
      else
        done lib sp response
        return w

def load_oid_tables (fuel : Nat) :
    List (Sigma fun _ : CStr => OID_Value_Table) → Host_Info →
      Client μ (Int32 × Host_Info)
  | [], info => return (0, info)
  | ⟨first, table⟩ :: rest, info => do
      Checked.lift (assert (first = table.oid))
      match agent.read_objid first with
      | none => return (-1, info)
      | some root => do
          match ← lib.snmp_sess_open (agent.sess_open first) ⟨info.ip_address, info.community⟩ with
          | none => return (-1, info)
          | some sp => do
              let w ← walk lib agent left first root sp fuel 0 ⟨true, root, table.suffix_of, ∅⟩
              load_oid_tables fuel rest { info with
                oid_table := info.oid_table.insert first { table with suffix_of := w.suffix_of } }

def load_oid_table (fuel : Nat) (info : Host_Info) : Client μ (Int32 × Host_Info) :=
  load_oid_tables lib agent left fuel (in_order info.oid_table) info

def thread_start (fuel : Nat) (info : Host_Info) : Client μ Host_Info := do
  let result ← load_oid_table lib agent left fuel info
  return if 0 ≤ result.1 then { result.2 with mapping_done := 1 } else result.2

end

end SnappCollector.Hosts.Snmp
