import SnappCollector.Collection.Proofs.Snmp
import SnappCollector.Hosts.Proofs.OidTable
import SnappCollector.Hosts.Proofs.Progress
import SnappCollector.Hosts.Snmp

/-!
# A table walk holds one session

Between two requests a walk holds the session of its table and nothing else, however many
requests it has sent; and loading the tables of a host leaves nothing behind.
-/

namespace SnappCollector.Hosts.Snmp

open CLib Collection Collection.Snmp Data

variable {agent : TableAgent} {left : CStr → Nat → Option (Bool × List BulkVariable)}
  {first : CStr} {root : Oid} {μ : Type} {lib : Library BulkVariable μ} {m₀ : μ}
  {ss : List (Nat × Session)} {ps : List (Nat × Pdu BulkVariable)} {sp : Nat} {session : Session}
  {S : μ → Prop}

def next_walk (agent : TableAgent) (first : CStr) (root : Oid) (i : Nat) (w : Walk) :
    Course Death Walk :=
  match agent.response first i w.name with
  | .success true vars => walk_variables first root vars w
  | .success false _ => .returned { w with running := false }
  | .timeout => .returned { w with running := false }
  | .other => .returned { w with running := false }

theorem walk_succ (fuel i : Nat) (w : Walk) :
    Hosts.walk agent first root (fuel + 1) i w = next_walk agent first root i w >>= fun w =>
      if w.running then Hosts.walk agent first root fuel (i + 1) w else .returned w := by
  rw [Hosts.walk, next_walk]
  cases agent.response first i w.name with
  | success noerror vars =>
      cases noerror with
      | true => rfl
      | false => rfl
  | timeout => rfl
  | other => rfl

theorem runs_handle_status (i : Nat) (w : Walk) {request : Request}
    (hname : request.vars = [w.name]) (result : Request × Status × Option Nat) :
    Checked.Runs (Answered lib m₀ ss ps request (answer agent left first i request) result)
      (handle_status lib first root w result.2.2 result.2.1) (next_walk agent first root i w)
      (Left lib m₀ ss ps result.2.2) S := by
  obtain ⟨sent, status, response⟩ := result
  rintro m ⟨rfl, hstatus, harrived⟩
  rw [answer, hname] at hstatus harrived
  rw [next_walk]
  cases hresponse : agent.response first i w.name with
  | success noerror vars =>
      simp only [List.headD_cons, hresponse] at hstatus harrived
      cases response with
      | none => exact harrived.elim
      | some id =>
          subst hstatus
          refine (returns_read_response.bind_runs fun read => ?_) m harrived
          rintro m ⟨rfl, hm⟩
          cases noerror with
          | false => exact ⟨m, rfl, fun _ => ⟨_, hm⟩, fun h => by cases h⟩
          | true =>
              have hpending : walk_variables first root vars w ≠ .pending :=
                (decided_walk_variables vars w).ne_pending
              exact ⟨m, rfl, fun _ => ⟨_, hm⟩, fun h => (hpending h).elim⟩
  | timeout =>
      simp only [List.headD_cons, hresponse] at hstatus harrived
      subst hstatus
      exact ⟨m, rfl, fun _ => harrived.left, fun h => by cases h⟩
  | other =>
      simp only [List.headD_cons, hresponse] at hstatus harrived
      subst hstatus
      exact ⟨m, rfl, fun _ => harrived.left, fun h => by cases h⟩

theorem runs_walk (hlib : lib.Rules) (fuel i : Nat) (w : Walk) :
    Checked.Runs (Held lib m₀ ((sp, session) :: ss) ps) (walk lib agent left first root sp fuel i w)
      (Hosts.walk agent first root fuel i w) (Held lib m₀ ss ps)
      (Held lib m₀ ((sp, session) :: ss) ps) := by
  induction fuel generalizing i w with
  | zero => exact .pending
  | succ fuel ih =>
      rw [walk_succ]
      refine (returns_snmp_pdu_create hlib).bind_runs fun pdu =>
        (returns_snmp_add_null_var hlib w.name).bind_runs fun _ =>
          (returns_snmp_sess_synch_response hlib _).bind_runs fun result =>
            (runs_handle_status i w rfl result).bind fun w' _ =>
              (returns_free_response hlib result.2.2).bind_runs fun response => ?_
      rintro m ⟨rfl, hm⟩
      cases w'.running with
      | true => exact ih (i + 1) w' m hm
      | false => exact ((returns_done hlib none).bind_runs fun _ => .pure w') m hm

/-- A session to the host beside those of `m₀`, while a walk goes on. -/
def Walking (lib : Library BulkVariable μ) (m₀ : μ) (session : Session) (m : μ) : Prop :=
  ∃ sp, Held lib m₀ [(sp, session)] [] m

theorem runs_walk_alone (hlib : lib.Rules) (fuel i : Nat) (w : Walk) :
    Checked.Runs (Held lib m₀ [(sp, session)] []) (walk lib agent left first root sp fuel i w)
      (Hosts.walk agent first root fuel i w) (Held lib m₀ [] []) (Walking lib m₀ session) :=
  (runs_walk hlib fuel i w).conseq (fun _ h => h) (fun _ h => h) fun _ hm => ⟨sp, hm⟩

theorem runs_load_oid_tables (hlib : lib.Rules) (fuel : Nat)
    (rest : List (Sigma fun _ : CStr => OID_Value_Table)) (info : Host_Info) :
    Checked.Runs (Held lib m₀ [] []) (load_oid_tables lib agent left fuel rest info)
      (Hosts.load_oid_tables agent fuel rest info) (Held lib m₀ [] [])
      (Walking lib m₀ ⟨info.ip_address, info.community⟩) := by
  induction rest generalizing info with
  | nil => exact .pure _
  | cons entry rest ih =>
      obtain ⟨first, table⟩ := entry
      rw [load_oid_tables, Hosts.load_oid_tables]
      refine Checked.Runs.bind (.lift fun _ _ h => ((decided_assert _).ne_pending h).elim)
        fun _ _ => ?_
      cases agent.read_objid first with
      | none => exact .pure _
      | some root =>
          cases agent.sess_open first with
          | false =>
              refine (returns_snmp_sess_open_none hlib _).bind_runs fun opened => ?_
              rintro m ⟨rfl, hm⟩
              exact Checked.Runs.pure _ m hm
          | true =>
              refine (returns_snmp_sess_open hlib _).bind_runs fun opened => ?_
              rintro m ⟨sp, rfl, hm⟩
              exact ((runs_walk_alone hlib fuel 0 ⟨true, root, table.suffix_of, ∅⟩).bind fun w _ =>
                ih { info with
                  oid_table := info.oid_table.insert first { table with suffix_of := w.suffix_of } })
                m hm

theorem runs_thread_start (hlib : lib.Rules) (fuel : Nat) (info : Host_Info) :
    Checked.Runs (Held lib m₀ [] []) (thread_start lib agent left fuel info)
      (Hosts.thread_start agent fuel info) (Held lib m₀ [] [])
      (Walking lib m₀ ⟨info.ip_address, info.community⟩) :=
  (runs_load_oid_tables hlib fuel _ info).bind fun _ _ => .pure _

structure OneSession (lib : Library BulkVariable μ) (m₀ : μ) (info : Host_Info) (m : μ) : Prop where
  pdus : lib.pdus m = lib.pdus m₀
  session : ∃ sp, lib.sessions m₀ sp = none ∧
    lib.sessions m sp = some ⟨info.ip_address, info.community⟩ ∧
    ∀ sp', sp' ≠ sp → lib.sessions m sp' = lib.sessions m₀ sp'

theorem Walking.oneSession {info : Host_Info} {m : μ}
    (h : Walking lib m₀ ⟨info.ip_address, info.community⟩ m) : OneSession lib m₀ info m := by
  obtain ⟨sp, hm⟩ := h
  refine ⟨hm.pdus.same, sp, hm.sessions.fresh _ (List.mem_cons_self ..), hm.sessions.read, ?_⟩
  intro sp' hne
  rw [hm.sessions.lookup, List.lookup_cons, beq_eq_false_iff_ne.mpr hne]
  rfl

/-- Whatever the agent answers, and with every library that keeps its rules, the thread of a host
uses no session and no PDU that is gone and closes or frees none twice: it does what
`thread_start` says; when it ends, the sessions and the PDUs are those of the start; and after
any number of requests to an agent that never lets the walk end, one session is held beside
them, and no PDU. -/
theorem one_session_of_load (hlib : lib.Rules) (agent : TableAgent)
    (left : CStr → Nat → Option (Bool × List BulkVariable)) (fuel : Nat) (info : Host_Info)
    (m : μ) :
    ∃ m', thread_start lib agent left fuel info m = some (m', Hosts.thread_start agent fuel info) ∧
      ((∃ info', Hosts.thread_start agent fuel info = .returned info') → lib.Same m m') ∧
      (Hosts.thread_start agent fuel info = .pending → OneSession lib m info m') := by
  obtain ⟨m', hrun, hreturned, hpending⟩ := runs_thread_start hlib fuel info m (.start m)
  exact ⟨m', hrun, fun h => (hreturned h).same, fun h => (hpending h).oneSession⟩

def tableInfo : Host_Info :=
  ⟨1, "10.0.0.1".toList, "public".toList, 0,
    AList.singleton ".1.3.6.1.2.1.2.2.1.2".toList ⟨".1.3.6.1.2.1.2.2.1.2".toList, ∅⟩⟩

/-- After three requests to an agent that has nothing to say, and in a memory with a session of
another thread. -/
theorem one_session_of_silence :
    ∃ m', thread_start (Memory.library BulkVariable) emptyAgent (fun _ _ => none) 3 tableInfo
        (sharedMemory BulkVariable) = some (m', .pending) ∧
      OneSession (Memory.library BulkVariable) (sharedMemory BulkVariable) tableInfo m' := by
  obtain ⟨m', hrun, -, hpending⟩ := one_session_of_load (rules_library BulkVariable) emptyAgent
    (fun _ _ => none) 3 tableInfo (sharedMemory BulkVariable)
  have hwalking : Hosts.thread_start emptyAgent 3 tableInfo = .pending := rfl
  rw [hwalking] at hrun
  exact ⟨m', hrun, hpending hwalking⟩

end SnappCollector.Hosts.Snmp
