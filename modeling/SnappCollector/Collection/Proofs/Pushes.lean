import SnappCollector.Collection.Rounds

/-!
# What a collection pushes

The outcomes of the loop body, one by one.  The facts about the clock and about the
pushed texts are proved by cases on them.
-/

namespace SnappCollector.Collection

open CLib Writer

/-! ## The loop over the collections -/

section Loop

variable {agent : Agent} {cls : SQL_Collection_Class} {host : Host_Info}

theorem get_collect_outcomes (agent : Agent) (host : Host_Info) (cls : SQL_Collection_Class)
    (sql_host : SQL_Host) (clock : Clock) :
    (get_collect agent host cls sql_host clock).1 =
      if agent.sess_open then collect_all agent cls host clock 0 sql_host.collection else [] := by
  rw [get_collect]
  split_ifs with hopen
  · rfl
  · rfl

theorem collect_all_getElem? {clock : Clock} {start i : Nat} {cs : List SQL_Collection}
    {outcome : Outcome} (h : (collect_all agent cls host clock start cs)[i]? = some outcome) :
    ∃ c, cs[i]? = some c ∧ outcome = collect agent cls host
      (clock_after clock ((collect_all agent cls host clock start cs).take i)) (start + i) c := by
  induction cs generalizing clock start i with
  | nil => simp [collect_all] at h
  | cons c cs ih =>
      rw [collect_all] at h
      cases i with
      | zero =>
          simp only [List.getElem?_cons_zero, Option.some.injEq] at h
          exact ⟨c, rfl, h.symm⟩
      | succ i =>
          simp only [List.getElem?_cons_succ] at h
          split at h
          · obtain ⟨c', hc', houtcome⟩ := ih h
            refine ⟨c', hc', ?_⟩
            rw [collect_all, List.take_succ_cons, clock_after_cons, houtcome]
            split
            · congr 1
              omega
            · contradiction
          · simp at h

theorem collect_all_singleton (clock : Clock) (i : Nat) (c : SQL_Collection) :
    collect_all agent cls host clock i [c] = [collect agent cls host clock i c] := by
  rw [collect_all]
  split
  · rfl
  · rfl

theorem collect_of_request {clock : Clock} {i : Nat} {c : SQL_Collection} {request : Request}
    (h : (collect agent cls host clock i c).request = some request) :
    collect agent cls host clock i c =
      handle_response agent cls clock i c request (agent.response i request) := by
  simp only [collect] at h ⊢
  cases hvars : request_variables agent.read_objid cls c with
  | none => simp [hvars] at h
  | some vars =>
      simp only [hvars, handle_response_request, Option.some.injEq] at h
      rw [← h]

end Loop

/-! ## The values of a response -/

inductive Cleans : Variable → CStr → Prop where
  | missing (text : CStr) : Cleans ⟨.NOSUCHINSTANCE, text⟩ "NAN".toList
  | value {text value : CStr} (hclean : get_clean_snmpvalue text = some value) :
      Cleans ⟨.value, text⟩ value

theorem cleaned_cons {v : Variable} {vars : List Variable} {snmp_val : List CStr}
    (h : snmp_values (v :: vars) = .cleaned snmp_val) :
    ∃ value rest, snmp_val = value :: rest ∧ Cleans v value ∧ snmp_values vars = .cleaned rest := by
  obtain ⟨type, text⟩ := v
  cases type with
  | ENDOFMIBVIEW => simp [snmp_values] at h
  | NOSUCHOBJECT => simp [snmp_values] at h
  | NOSUCHINSTANCE =>
      cases hvalues : snmp_values vars with
      | exception => simp [snmp_values, hvalues] at h
      | undefined => simp [snmp_values, hvalues] at h
      | cleaned rest =>
          simp only [snmp_values, hvalues, reduceCtorEq, or_self, if_false, if_true,
            Values.cleaned.injEq] at h
          exact ⟨_, rest, h.symm, .missing text, rfl⟩
  | value =>
      cases hclean : get_clean_snmpvalue text with
      | none => simp [snmp_values, hclean] at h
      | some value =>
          cases hvalues : snmp_values vars with
          | exception => simp [snmp_values, hclean, hvalues] at h
          | undefined => simp [snmp_values, hclean, hvalues] at h
          | cleaned rest =>
              simp only [snmp_values, hclean, hvalues, reduceCtorEq, or_self, if_false,
                Values.cleaned.injEq] at h
              exact ⟨value, rest, h.symm, .value hclean, rfl⟩

theorem cleans_of_snmp_values {vars : List Variable} {snmp_val : List CStr}
    (h : snmp_values vars = .cleaned snmp_val) : List.Forall₂ Cleans vars snmp_val := by
  induction vars generalizing snmp_val with
  | nil =>
      simp only [snmp_values, Values.cleaned.injEq] at h
      subst h
      exact .nil
  | cons v vars ih =>
      obtain ⟨value, rest, rfl, hclean, hrest⟩ := cleaned_cons h
      exact .cons hclean (ih hrest)

/-! ## One collection -/

def uptime (cls : SQL_Collection_Class) (snmp_val : List CStr) : UInt32 :=
  (atoi (snmp_val.getD cls.oid.length [])).toUInt32

theorem uptime_dec {cls : SQL_Collection_Class} {snmp_val : List CStr} {ticks : Nat}
    (hlast : snmp_val[cls.oid.length]? = some (dec ticks)) (hticks : ticks < 2 ^ 32) :
    uptime cls snmp_val = UInt32.ofNat ticks := by
  rw [uptime, List.getD_eq_getElem?_getD, hlast]
  exact toUInt32_atoi_dec hticks

/-- Only the largest counter looks like the error value. -/
theorem ofNat_ne_neg_one {ticks : Nat} (hticks : ticks < 2 ^ 32 - 1) : UInt32.ofNat ticks ≠ -1 := by
  intro heq
  have hnat := congrArg UInt32.toNat heq
  rw [UInt32.toNat_ofNat', Nat.mod_eq_of_lt (by omega)] at hnat
  have hmax : (-1 : UInt32).toNat = 2 ^ 32 - 1 := by decide
  omega

variable {agent : Agent} {cls : SQL_Collection_Class} {host : Host_Info}

inductive Collected (agent : Agent) (cls : SQL_Collection_Class) (clock : Clock) (i : Nat)
    (c : SQL_Collection) (outcome : Outcome) : Prop where
  | unchanged (hpush : outcome.push = none) (hclock : outcome.clock = clock)
  | no_oid (hoid : cls.oid = []) (hpush : outcome.push = none)
  | pushed (request : Request) (vars : List Variable) (snmp_val : List CStr)
      (hrequest : outcome.request = some request)
      (hresponse : agent.response i request = .success true vars)
      (hvalues : snmp_values vars = .cleaned snmp_val)
      (hlength : snmp_val.length = cls.oid.length + 1) (huptime : uptime cls snmp_val ≠ -1)
      (hoid : cls.oid ≠ [])
      (hclock : outcome.clock = clock.update (uptime cls snmp_val) (agent.time i))
      (hpush : outcome.push = some
        { in_time := .fin (outcome.clock.finaltime (uptime cls snmp_val))
          filename := cls.rrd_dir ++ c.rrd_filename
          in_rrd_template := rrd_template cls.oid
          values := rrd_values cls.oid.length snmp_val
          stack := agent.stack i
          token := agent.token i })
      (hnext : outcome.continuation = .next)

theorem Collected.push_of_no_oid {agent : Agent} {cls : SQL_Collection_Class} {clock : Clock}
    {i : Nat} {c : SQL_Collection} {outcome : Outcome}
    (h : Collected agent cls clock i c outcome) (hoid : cls.oid = []) : outcome.push = none := by
  cases h with
  | unchanged hpush _ => exact hpush
  | no_oid _ hpush => exact hpush
  | pushed _ _ _ _ _ _ _ _ hne => exact absurd hoid hne

theorem collected (agent : Agent) (cls : SQL_Collection_Class) (host : Host_Info) (clock : Clock)
    (i : Nat) (c : SQL_Collection) :
    Collected agent cls clock i c (collect agent cls host clock i c) := by
  cases hrequest : (collect agent cls host clock i c).request with
  | none =>
      simp only [collect] at hrequest ⊢
      cases hvars : request_variables agent.read_objid cls c with
      | none => exact .unchanged rfl rfl
      | some vars => simp [hvars, handle_response_request] at hrequest
  | some request =>
      rw [collect_of_request hrequest]
      cases hresponse : agent.response i request with
      | timeout => exact .unchanged rfl rfl
      | other => exact .unchanged rfl rfl
      | success noerror vars =>
          cases noerror with
          | false => exact .unchanged rfl rfl
          | true =>
              simp only [handle_response]
              cases hvalues : snmp_values vars with
              | exception => exact .unchanged rfl rfl
              | undefined => exact .unchanged rfl rfl
              | cleaned snmp_val =>
                  simp only [store_values]
                  by_cases hlength : snmp_val.length = cls.oid.length + 1
                  · by_cases huptime : (atoi (snmp_val.getD cls.oid.length [])).toUInt32 = -1
                    · rw [if_pos hlength, if_pos huptime]
                      exact .unchanged rfl rfl
                    · by_cases hoid : cls.oid = []
                      · rw [if_pos hlength, if_neg huptime, if_pos hoid]
                        exact .no_oid hoid rfl
                      · rw [if_pos hlength, if_neg huptime, if_neg hoid]
                        exact .pushed request vars snmp_val rfl hresponse hvalues hlength huptime
                          hoid rfl rfl rfl
                  · rw [if_neg hlength]
                    exact .unchanged rfl rfl

theorem store_values_of_uptime {clock : Clock} {i : Nat} {c : SQL_Collection} {request : Request}
    {snmp_val : List CStr} (hlength : snmp_val.length = cls.oid.length + 1)
    (huptime : uptime cls snmp_val ≠ -1) (hoid : cls.oid ≠ []) :
    store_values agent cls clock i c request snmp_val =
      { request := some request
        push := some
          { in_time := .fin
              ((clock.update (uptime cls snmp_val) (agent.time i)).finaltime (uptime cls snmp_val))
            filename := cls.rrd_dir ++ c.rrd_filename
            in_rrd_template := rrd_template cls.oid
            values := rrd_values cls.oid.length snmp_val
            stack := agent.stack i
            token := agent.token i }
        clock := clock.update (uptime cls snmp_val) (agent.time i)
        failed := false
        continuation := .next } := by
  unfold uptime at huptime
  simp only [store_values, hlength, huptime, hoid, if_true, if_false]
  rfl

theorem collect_of_variables {clock : Clock} {i : Nat} {c : SQL_Collection} {oids : List Oid}
    (hrequest : request_variables agent.read_objid cls c = some oids) :
    collect agent cls host clock i c =
      handle_response agent cls clock i c ⟨host.ip_address, host.community, oids⟩
        (agent.response i ⟨host.ip_address, host.community, oids⟩) := by
  simp only [collect, hrequest]

theorem collect_of_cleaned {clock : Clock} {i : Nat} {c : SQL_Collection} {oids : List Oid}
    {vars : List Variable} {snmp_val : List CStr}
    (hrequest : request_variables agent.read_objid cls c = some oids)
    (hanswer : agent.response i ⟨host.ip_address, host.community, oids⟩ = .success true vars)
    (hvalues : snmp_values vars = .cleaned snmp_val) :
    collect agent cls host clock i c =
      store_values agent cls clock i c ⟨host.ip_address, host.community, oids⟩ snmp_val := by
  rw [collect_of_variables hrequest, hanswer]
  simp only [handle_response, hvalues]

theorem collected_of_get_collect {sql_host : SQL_Host} {clock : Clock} {i : Nat} {outcome : Outcome}
    (h : (get_collect agent host cls sql_host clock).1[i]? = some outcome) :
    ∃ clock' c, Collected agent cls clock' i c outcome := by
  rw [get_collect_outcomes] at h
  split_ifs at h
  · obtain ⟨c, -, houtcome⟩ := collect_all_getElem? h
    rw [Nat.zero_add] at houtcome
    rw [houtcome]
    exact ⟨_, c, collected agent cls host _ i c⟩
  · simp at h

end SnappCollector.Collection
