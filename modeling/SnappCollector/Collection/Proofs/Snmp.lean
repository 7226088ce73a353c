import SnappCollector.Collection.Snmp
import SnappCollector.Machine.Heap

/-!
# Every session is closed and every PDU is freed

`Held` says which sessions and PDUs there are beside those of the start.  The calls of the
library follow it by its rules, so `get_collect` never uses what is gone, and in the end nothing
is left.
-/

namespace SnappCollector.Collection.Snmp

open CLib Data Machine

/-- These sessions and PDUs, beside those of `m₀`. -/
structure Held {α μ : Type} (lib : Library α μ) (m₀ : μ) (sessions : List (Nat × Session))
    (pdus : List (Nat × Pdu α)) (m : μ) : Prop where
  sessions : Adds (lib.sessions m₀) sessions (lib.sessions m)
  pdus : Adds (lib.pdus m₀) pdus (lib.pdus m)

def Library.Same {α μ : Type} (lib : Library α μ) (m₀ m : μ) : Prop :=
  lib.sessions m = lib.sessions m₀ ∧ lib.pdus m = lib.pdus m₀

/-- What `response` points to is held beside the other PDUs. -/
def Left {α μ : Type} (lib : Library α μ) (m₀ : μ) (sessions : List (Nat × Session))
    (pdus : List (Nat × Pdu α)) (response : Option Nat) (m : μ) : Prop :=
  match response with
  | none => Held lib m₀ sessions pdus m
  | some id => ∃ pdu, Held lib m₀ sessions ((id, pdu) :: pdus) m

/-! ## The library -/

section Library

variable {α μ : Type} {lib : Library α μ} {m₀ m : μ} {ss : List (Nat × Session)}
  {ps : List (Nat × Pdu α)} {sp req : Nat} {vars : List Oid} {session : Session}

theorem Held.start (m : μ) : Held lib m [] [] m := ⟨.refl _, .refl _⟩

theorem Held.same (h : Held lib m₀ [] [] m) : lib.Same m₀ m :=
  ⟨h.sessions.same, h.pdus.same⟩

theorem Held.of_leaves {β : Type} {call : Client μ β} {a : β} {sessions : Nat → Option Session}
    {pdus : Nat → Option (Pdu α)} (h : lib.Leaves m call a sessions pdus)
    (hsessions : Adds (lib.sessions m₀) ss sessions) (hpdus : Adds (lib.pdus m₀) ps pdus) :
    ∃ m', call m = some (m', .returned a) ∧ Held lib m₀ ss ps m' := by
  obtain ⟨m', hrun, rfl, rfl⟩ := h
  exact ⟨m', hrun, hsessions, hpdus⟩

theorem returns_snmp_sess_open (hlib : lib.Rules) (session : Session) :
    Checked.Returns (Held lib m₀ ss ps) (lib.snmp_sess_open true session) fun opened m =>
      ∃ sp, opened = some sp ∧ Held lib m₀ ((sp, session) :: ss) ps m := by
  intro m hm
  obtain ⟨sp, hfree, hleaves⟩ := hlib.opened m session
  obtain ⟨m', hrun, hm'⟩ := Held.of_leaves hleaves (hm.sessions.alloc hfree session) hm.pdus
  exact ⟨m', some sp, hrun, sp, rfl, hm'⟩

theorem returns_snmp_sess_open_none (hlib : lib.Rules) (session : Session) :
    Checked.Returns (Held lib m₀ ss ps) (lib.snmp_sess_open false session) fun opened m =>
      opened = none ∧ Held lib m₀ ss ps m := by
  intro m hm
  obtain ⟨m', hrun, hm'⟩ := Held.of_leaves (hlib.not_opened m session) hm.sessions hm.pdus
  exact ⟨m', none, hrun, rfl, hm'⟩

theorem returns_snmp_sess_close (hlib : lib.Rules) :
    Checked.Returns (Held lib m₀ ((sp, session) :: ss) ps) (lib.snmp_sess_close sp)
      fun _ => Held lib m₀ ss ps := by
  intro m hm
  have hleaves := hlib.closed m sp session hm.sessions.read
  obtain ⟨m', hrun, hm'⟩ := Held.of_leaves hleaves hm.sessions.free hm.pdus
  exact ⟨m', (), hrun, hm'⟩

theorem returns_snmp_pdu_create (hlib : lib.Rules) :
    Checked.Returns (Held lib m₀ ss ps) lib.snmp_pdu_create fun req =>
      Held lib m₀ ss ((req, .request []) :: ps) := by
  intro m hm
  obtain ⟨req, hfree, hleaves⟩ := hlib.created m
  obtain ⟨m', hrun, hm'⟩ := Held.of_leaves hleaves hm.sessions (hm.pdus.alloc hfree _)
  exact ⟨m', req, hrun, hm'⟩

theorem returns_snmp_free_pdu (hlib : lib.Rules) {pdu : Pdu α} :
    Checked.Returns (Held lib m₀ ss ((req, pdu) :: ps)) (lib.snmp_free_pdu req)
      fun _ => Held lib m₀ ss ps := by
  intro m hm
  have hleaves := hlib.freed m req pdu hm.pdus.read
  obtain ⟨m', hrun, hm'⟩ := Held.of_leaves hleaves hm.sessions hm.pdus.free
  exact ⟨m', (), hrun, hm'⟩

theorem returns_snmp_add_null_var (hlib : lib.Rules) (name : Oid) :
    Checked.Returns (Held lib m₀ ss ((req, .request vars) :: ps)) (lib.snmp_add_null_var req name)
      fun _ => Held lib m₀ ss ((req, .request (vars ++ [name])) :: ps) := by
  intro m hm
  have hleaves := hlib.added m req vars name hm.pdus.read
  obtain ⟨m', hrun, hm'⟩ := Held.of_leaves hleaves hm.sessions (hm.pdus.write _)
  exact ⟨m', (), hrun, hm'⟩

def Arrived (lib : Library α μ) (m₀ : μ) (ss : List (Nat × Session)) (ps : List (Nat × Pdu α)) :
    Option (Bool × List α) → Option Nat → μ → Prop
  | none, none, m => Held lib m₀ ss ps m
  | some (noerror, vars), some id, m => Held lib m₀ ss ((id, .response noerror vars) :: ps) m
  | none, some _, _ => False
  | some _, none, _ => False

theorem Arrived.left {arrived : Option (Bool × List α)} {response : Option Nat}
    (h : Arrived lib m₀ ss ps arrived response m) : Left lib m₀ ss ps response m := by
  cases arrived with
  | none =>
      cases response with
      | none => exact h
      | some id => exact h.elim
  | some arrived =>
      cases response with
      | none => exact h.elim
      | some id => exact ⟨_, h⟩

def Answered (lib : Library α μ) (m₀ : μ) (ss : List (Nat × Session)) (ps : List (Nat × Pdu α))
    (request : Request) (a : Answer α) (result : Request × Status × Option Nat) (m : μ) : Prop :=
  result.1 = request ∧ result.2.1 = a.status ∧ Arrived lib m₀ ss ps a.response result.2.2 m

theorem returns_snmp_sess_synch_response (hlib : lib.Rules) (f : Request → Answer α) :
    Checked.Returns (Held lib m₀ ((sp, session) :: ss) ((req, .request vars) :: ps))
      (lib.snmp_sess_synch_response sp req f)
      (Answered lib m₀ ((sp, session) :: ss) ps ⟨session.peername, session.community, vars⟩
        (f ⟨session.peername, session.community, vars⟩)) := by
  intro m hm
  cases hresponse : (f ⟨session.peername, session.community, vars⟩).response with
  | none =>
      have hleaves :=
        hlib.unanswered m sp session req vars f hm.sessions.read hm.pdus.read hresponse
      obtain ⟨m', hrun, hm'⟩ := Held.of_leaves hleaves hm.sessions hm.pdus.free
      exact ⟨m', _, hrun, rfl, rfl, by rw [hresponse]; exact hm'⟩
  | some arrived =>
      obtain ⟨noerror, arrived⟩ := arrived
      obtain ⟨response, hfree, hleaves⟩ := hlib.answered m sp session req vars f noerror arrived
        hm.sessions.read hm.pdus.read hresponse
      obtain ⟨m', hrun, hm'⟩ := Held.of_leaves hleaves hm.sessions (hm.pdus.free.alloc hfree _)
      exact ⟨m', _, hrun, rfl, rfl, by rw [hresponse]; exact hm'⟩

theorem returns_read_response {id : Nat} {noerror : Bool} {vars : List α} :
    Checked.Returns (Held lib m₀ ss ((id, .response noerror vars) :: ps))
      (read_response lib (some id))
      fun read m =>
        read = (noerror, vars) ∧ Held lib m₀ ss ((id, .response noerror vars) :: ps) m := by
  apply Checked.Returns.access
  intro m hm
  exact ⟨m, (noerror, vars), by simp [hm.pdus.read], rfl, hm⟩

theorem returns_free_response (hlib : lib.Rules) (response : Option Nat) :
    Checked.Returns (Left lib m₀ ss ps response) (free_response lib response) fun response m =>
      response = none ∧ Held lib m₀ ss ps m := by
  cases response with
  | none => exact .pure _ fun m hm => ⟨rfl, hm⟩
  | some id =>
      intro m hm
      obtain ⟨pdu, hm⟩ := hm
      exact ((returns_snmp_free_pdu hlib).bind fun _ => .pure _ fun _ hm => ⟨rfl, hm⟩) m hm

theorem returns_done (hlib : lib.Rules) (response : Option Nat) :
    Checked.Returns (Left lib m₀ ((sp, session) :: ss) ps response) (done lib sp response)
      fun _ => Held lib m₀ ss ps :=
  (returns_free_response hlib response).bind fun _ =>
    (returns_snmp_sess_close hlib).conseq (fun _ h => h.2) fun _ _ h => h

end Library

/-! ## A library that goes wrong where it gets what is gone -/

structure Memory (α : Type) where
  sessions : Heap Session
  pdus : Heap (Pdu α)

def Memory.library (α : Type) : Library α (Memory α) where
  sessions m := m.sessions.get?
  pdus m := m.pdus.get?
  snmp_sess_open opens session :=
    .access fun m =>
      if opens then some ({ m with sessions := m.sessions.alloc session }, some m.sessions.next)
      else some (m, none)
  snmp_sess_close sp :=
    .access fun m => (m.sessions.free? sp).map fun sessions => ({ m with sessions }, ())
  snmp_pdu_create :=
    .access fun m => some ({ m with pdus := m.pdus.alloc (.request []) }, m.pdus.next)
  snmp_free_pdu id := .access fun m => (m.pdus.free? id).map fun pdus => ({ m with pdus }, ())
  snmp_add_null_var req name :=
    .access fun m =>
      match m.pdus.get? req with
      | some (.request vars) =>
          (m.pdus.write? req (.request (vars ++ [name]))).map fun pdus => ({ m with pdus }, ())
      | _ => none
  snmp_sess_synch_response sp req answer :=
    .access fun m =>
      match m.sessions.get? sp, m.pdus.get? req with
      | some session, some (.request vars) =>
          let request : Request := ⟨session.peername, session.community, vars⟩
          (m.pdus.free? req).map fun pdus =>
            match (answer request).response with
            | none => ({ m with pdus }, request, (answer request).status, none)
            | some (noerror, vars) =>
                ({ m with pdus := pdus.alloc (.response noerror vars) }, request,
                  (answer request).status, some pdus.next)
      | _, _ => none

theorem rules_library (α : Type) : (Memory.library α).Rules where
  opened m session :=
    ⟨m.sessions.next, m.sessions.get?_next, ⟨m.sessions.alloc session, m.pdus⟩, rfl,
      m.sessions.get?_alloc session, rfl⟩
  not_opened m session := ⟨m, rfl, rfl, rfl⟩
  closed m sp session h := by
    obtain ⟨sessions, hfree, hget⟩ := Heap.exists_free h
    refine ⟨⟨sessions, m.pdus⟩, ?_, hget, rfl⟩
    simp only [Memory.library, Checked.access, hfree, Option.map_some]
  created m :=
    ⟨m.pdus.next, m.pdus.get?_next, ⟨m.sessions, m.pdus.alloc (.request [])⟩, rfl, rfl,
      m.pdus.get?_alloc _⟩
  freed m id pdu h := by
    obtain ⟨pdus, hfree, hget⟩ := Heap.exists_free h
    refine ⟨⟨m.sessions, pdus⟩, ?_, rfl, hget⟩
    simp only [Memory.library, Checked.access, hfree, Option.map_some]
  added m req vars name (h : m.pdus.get? req = some (.request vars)) := by
    obtain ⟨pdus, hwrite, hget⟩ := Heap.exists_write h (.request (vars ++ [name]))
    refine ⟨⟨m.sessions, pdus⟩, ?_, rfl, hget⟩
    simp only [Memory.library, Checked.access, h, hwrite, Option.map_some]
  unanswered m sp session req vars answer (hsession : m.sessions.get? sp = some session)
      (hreq : m.pdus.get? req = some (.request vars)) hanswer := by
    obtain ⟨pdus, hfree, hget⟩ := Heap.exists_free hreq
    refine ⟨⟨m.sessions, pdus⟩, ?_, rfl, hget⟩
    simp only [Memory.library, Checked.access, hsession, hreq, hfree, hanswer, Option.map_some]
  answered m sp session req vars answer noerror arrived
      (hsession : m.sessions.get? sp = some session)
      (hreq : m.pdus.get? req = some (.request vars)) hanswer := by
    obtain ⟨pdus, hfree, hget⟩ := Heap.exists_free hreq
    refine ⟨pdus.next, hget ▸ pdus.get?_next,
      ⟨m.sessions, pdus.alloc (.response noerror arrived)⟩, ?_, rfl, hget ▸ pdus.get?_alloc _⟩
    simp only [Memory.library, Checked.access, hsession, hreq, hfree, hanswer, Option.map_some]

/-! ## Polling a host -/

section Polling

variable {agent : Agent} {left : Nat → Option (Bool × List Variable)} {host : Host_Info}
  {cls : SQL_Collection_Class} {μ : Type} {lib : Library Variable μ} {m₀ : μ}
  {ss : List (Nat × Session)} {ps : List (Nat × Pdu Variable)} {sp req : Nat} {S : μ → Prop}

theorem returns_fill_pdu (hlib : lib.Rules) (read_objid : CStr → Option Oid) (texts : List CStr)
    (vars : List Oid) :
    Checked.Returns (Held lib m₀ ss ((req, .request vars) :: ps))
      (fill_pdu lib read_objid req texts) fun filled m =>
        match texts.mapM read_objid with
        | some oids => filled = true ∧ Held lib m₀ ss ((req, .request (vars ++ oids)) :: ps) m
        | none => filled = false ∧ ∃ vars, Held lib m₀ ss ((req, .request vars) :: ps) m := by
  induction texts generalizing vars with
  | nil => exact .pure _ fun m hm => ⟨rfl, by simpa using hm⟩
  | cons text texts ih =>
      rw [List.mapM_cons, fill_pdu]
      cases read_objid text with
      | none => exact .pure _ fun m hm => ⟨rfl, vars, hm⟩
      | some root =>
          refine (returns_snmp_add_null_var hlib root).bind fun _ => (ih _).conseq (fun _ h => h) ?_
          intro filled m hfilled
          cases hread : texts.mapM read_objid with
          | none => simpa [hread] using hfilled
          | some oids => simpa [hread] using hfilled

theorem returns_unfilled (hlib : lib.Rules) {outcome : Outcome} {vars : List Oid} :
    Checked.Returns (Held lib m₀ ss ((req, .request vars) :: ps))
      (do lib.snmp_free_pdu req; return (outcome, none) : Client μ (Outcome × Option Nat))
      fun result m => result.1 = outcome ∧ Left lib m₀ ss ps result.2 m :=
  (returns_snmp_free_pdu hlib).bind fun _ => .pure _ fun _ hm => ⟨rfl, hm⟩

theorem returns_handle_status (clock : Clock) (i : Nat) (c : SQL_Collection) (request : Request)
    (result : Request × Status × Option Nat) :
    Checked.Returns (Answered lib m₀ ss ps request (answer agent left i request) result)
      (handle_status lib agent cls clock i c result.1 result.2.2 result.2.1) fun handled m =>
        handled.1 = handle_response agent cls clock i c request (agent.response i request) ∧
          Left lib m₀ ss ps handled.2 m := by
  obtain ⟨sent, status, response⟩ := result
  rintro m ⟨rfl, hstatus, hheld⟩
  rw [answer] at hstatus hheld
  cases hresponse : agent.response i sent with
  | success noerror vars =>
      simp only [hresponse] at hstatus hheld
      cases response with
      | none => exact hheld.elim
      | some id =>
          subst hstatus
          refine (returns_read_response.bind fun read => .pure _ fun m hm => ?_) m hheld
          obtain ⟨rfl, hm⟩ := hm
          exact ⟨rfl, _, hm⟩
  | timeout =>
      simp only [hresponse] at hstatus hheld
      subst hstatus
      exact ⟨m, _, rfl, rfl, hheld.left⟩
  | other =>
      simp only [hresponse] at hstatus hheld
      subst hstatus
      exact ⟨m, _, rfl, rfl, hheld.left⟩

/-- One collection: what it does is what is done without memory, and all that it leaves is
the response. -/
theorem returns_collect (hlib : lib.Rules) (clock : Clock) (i : Nat) (c : SQL_Collection) :
    Checked.Returns (Held lib m₀ ((sp, ⟨host.ip_address, host.community⟩) :: ss) ps)
      (collect lib agent left cls sp clock i none c) fun result m =>
        result.1 = Collection.collect agent cls host clock i c ∧
          Left lib m₀ ((sp, ⟨host.ip_address, host.community⟩) :: ss) ps result.2 m := by
  rw [collect, Collection.collect, request_variables]
  cases c.skipped with
  | true => exact .pure _ fun m hm => ⟨rfl, hm⟩
  | false =>
      refine (returns_snmp_pdu_create hlib).bind fun req =>
        (returns_fill_pdu hlib _ _ _).bind fun filled => ?_
      cases (cls.oid.map (oid_string c)).mapM agent.read_objid with
      | none =>
          rintro m ⟨rfl, vars, hm⟩
          exact returns_unfilled hlib m hm
      | some oids =>
          rintro m ⟨rfl, hm⟩
          refine ((returns_snmp_add_null_var hlib timeticks).bind fun _ =>
            (returns_snmp_sess_synch_response hlib _).bind fun result =>
              returns_handle_status clock i c _ result) m hm

def course (outcomes : List Outcome) : Course Death (List Outcome) :=
  if outcomes.any (·.continuation = .undefined) then .died .fault else .returned outcomes

theorem course_cons {outcome : Outcome} (h : outcome.continuation ≠ .undefined)
    (outcomes : List Outcome) :
    course (outcome :: outcomes) = course outcomes >>= fun rest => .returned (outcome :: rest) := by
  simp only [course, List.any_cons, decide_eq_false h, Bool.false_or]
  split <;> rfl

theorem runs_collect_all (hlib : lib.Rules) (clock : Clock) (i : Nat) (cs : List SQL_Collection) :
    Checked.Runs (Held lib m₀ ((sp, ⟨host.ip_address, host.community⟩) :: ss) ps)
      (collect_all lib agent left cls sp clock i none cs)
      (course (Collection.collect_all agent cls host clock i cs)) (Held lib m₀ ss ps) S := by
  induction cs generalizing clock i with
  | nil =>
      refine (returns_done hlib none).bind_runs fun _ => ?_
      exact .pure []
  | cons c cs ih =>
      rw [collect_all, Collection.collect_all]
      refine (Checked.Returns.check rfl).bind_runs fun _ =>
        (returns_collect hlib clock i c).bind_runs fun result => ?_
      obtain ⟨outcome, response⟩ := result
      rintro m ⟨houtcome, hleft⟩
      simp only at houtcome hleft
      rw [← houtcome]
      simp only
      cases hcontinuation : outcome.continuation with
      | next =>
          simp only
          rw [course_cons (by rw [hcontinuation]; simp)]
          refine ((returns_free_response hlib response).bind_runs fun response => ?_) m hleft
          rintro m ⟨rfl, hm⟩
          exact ((ih outcome.clock (i + 1)).bind fun rest _ => .pure _) m hm
      | done =>
          simp only
          rw [course_cons (by rw [hcontinuation]; simp)]
          exact ((returns_done hlib response).bind_runs fun _ => .pure _) m hleft
      | undefined =>
          have hcourse : course [outcome] = .died .fault := by simp [course, hcontinuation]
          simp only
          rw [hcourse]
          exact ⟨m, rfl, by simp, by simp⟩

end Polling

/-! ## The polls of a worker -/

def Poll.result (p : Poll) : List Outcome × Int :=
  Collection.get_collect p.agent p.host p.cls p.sql_host p.clock

def Poll.defined (p : Poll) : Bool := p.result.1.all (·.continuation ≠ .undefined)

def Poll.course (p : Poll) : Course Death (List Outcome × Int) :=
  if p.defined then .returned p.result else .died .fault

theorem course_bind (outcomes : List Outcome) {α : Type} (f : List Outcome → α) :
    (course outcomes >>= fun outcomes => .returned (f outcomes)) =
      if outcomes.all (·.continuation ≠ .undefined) then .returned (f outcomes)
      else .died .fault := by
  have hall : outcomes.all (·.continuation ≠ .undefined) =
      !outcomes.any (·.continuation = .undefined) := by
    simp [List.not_any_eq_all_not]
  rw [course, hall]
  cases outcomes.any (·.continuation = .undefined) <;> rfl

theorem runs_poll {μ : Type} {lib : Library Variable μ} (hlib : lib.Rules) {m₀ : μ}
    {ss : List (Nat × Session)} {ps : List (Nat × Pdu Variable)} {S : μ → Prop} (p : Poll) :
    Checked.Runs (Held lib m₀ ss ps) (p.run lib) p.course (Held lib m₀ ss ps) S := by
  rw [Poll.run, get_collect, Poll.course, Poll.defined, Poll.result, Collection.get_collect]
  cases p.agent.sess_open with
  | false =>
      refine (returns_snmp_sess_open_none hlib _).bind_runs fun opened => ?_
      rintro m ⟨rfl, hm⟩
      exact Checked.Runs.pure _ m hm
  | true =>
      refine (returns_snmp_sess_open hlib _).bind_runs fun opened => ?_
      rintro m ⟨sp, rfl, hm⟩
      have hall : Checked.Runs _
          (collect_all lib p.agent p.left p.cls sp p.clock 0 none p.sql_host.collection)
          (course (Collection.collect_all p.agent p.cls p.host p.clock 0 p.sql_host.collection))
          (Held lib m₀ ss ps) S := runs_collect_all hlib p.clock 0 p.sql_host.collection
      have hpoll := (hall.bind fun outcomes _ =>
        .pure (outcomes, if outcomes.any (·.failed) then (-1 : Int) else 0)) m hm
      rw [course_bind] at hpoll
      exact hpoll

theorem mapM_course (polls : List Poll) : polls.mapM Poll.course =
    if polls.all Poll.defined then .returned (polls.map Poll.result) else .died .fault := by
  induction polls with
  | nil => rfl
  | cons p polls ih =>
      rw [List.mapM_cons, ih, Poll.course, List.all_cons]
      cases p.defined with
      | false => rfl
      | true =>
          cases polls.all Poll.defined with
          | false => rfl
          | true => rfl

/-- In whatever a worker does for the hosts that it polls, no session and no PDU is used when it
is gone, closed or freed twice, or sent without a session, and `response` is null before each
collection: with every library that keeps its rules, also with one that goes wrong there, the
worker does what `get_collect` says, and in the end the sessions and the PDUs are those of the
start. -/
theorem same_of_polls {μ : Type} {lib : Library Variable μ} (hlib : lib.Rules) (polls : List Poll)
    (m : μ) :
    ∃ m', thread_start lib polls m = some (m',
        if polls.all Poll.defined then .returned (polls.map Poll.result) else .died .fault) ∧
      (polls.all Poll.defined = true → lib.Same m m') := by
  have hruns : Checked.Runs (Held lib m [] []) (thread_start lib polls) (polls.mapM Poll.course)
      (Held lib m [] []) (Held lib m [] []) := .mapM fun p _ => runs_poll hlib p
  obtain ⟨m', hrun, hreturned, -⟩ := hruns m (.start m)
  rw [mapM_course] at hrun hreturned
  refine ⟨m', hrun, fun hdefined => (hreturned ?_).same⟩
  rw [if_pos hdefined]
  exact ⟨_, rfl⟩

/-- One OID cannot be read with the suffix 2, the first request is refused, and the second one
is never answered but leaves a PDU. -/
def unsteadyPoll : Poll where
  agent :=
    { sess_open := true
      read_objid text := if text = "1.4.2".toList then none else some [1, 3]
      response i _ := if i = 1 then .success false [] else .timeout
      time _ := 1000
      stack _ := []
      token _ := .null }
  left _ := some (true, [])
  host := ⟨1, "10.0.0.1".toList, "public".toList, 1, ∅⟩
  cls := ⟨1, 60, [], [⟨"1.3".toList, "octets".toList⟩, ⟨"1.4".toList, "errors".toList⟩], [], []⟩
  sql_host := ⟨0, [⟨[], "2".toList, 1, "port2.rrd".toList⟩, ⟨[], "1".toList, 1, "port1.rrd".toList⟩,
    ⟨[], "3".toList, 1, "port3.rrd".toList⟩]⟩
  clock := ⟨0, 0⟩

def unopenedPoll : Poll :=
  { unsteadyPoll with agent := { unsteadyPoll.agent with sess_open := false } }

/-- Another thread holds a session meanwhile. -/
def sharedMemory (α : Type) : Memory α :=
  ⟨Heap.empty.alloc ⟨"10.0.0.2".toList, "public".toList⟩, Heap.empty⟩

theorem same_of_unsteady :
    ∃ m', thread_start (Memory.library Variable) [unsteadyPoll, unopenedPoll, unsteadyPoll]
        (sharedMemory Variable) = some (m', .returned
          [unsteadyPoll.result, unopenedPoll.result, unsteadyPoll.result]) ∧
      unsteadyPoll.result.1.length = 3 ∧
      (Memory.library Variable).Same (sharedMemory Variable) m' := by
  obtain ⟨m', hrun, hsame⟩ := same_of_polls (rules_library Variable)
    [unsteadyPoll, unopenedPoll, unsteadyPoll] (sharedMemory Variable)
  have hdefined : [unsteadyPoll, unopenedPoll, unsteadyPoll].all Poll.defined = true := by decide
  rw [if_pos hdefined] at hrun
  exact ⟨m', hrun, by decide, hsame hdefined⟩

end SnappCollector.Collection.Snmp
