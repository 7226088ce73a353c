import SnappCollector.Collection.Proofs.Clock
import SnappCollector.Collection.Proofs.RoundTrip

/-!
# What the memory held before the first poll

Two runs with the same answers that differ in the first `timeticks` and `mytime` only.
The first push makes them agree if it sets the clock in both.
-/

namespace SnappCollector.Collection

open CLib Writer

/-! ## Clocks that the first push sets -/

/-- Every uptime that can be pushed sets the clock. -/
def Clock.Unset (clock : Clock) : Prop :=
  clock.timeticks = 0 ∨ clock.timeticks = -1 ∨ clock.timeticks = -2

/-- The clocks are the same, or will be from the first push on. -/
inductive Alike : Clock → Clock → Prop where
  | same (clock : Clock) : Alike clock clock
  | unset {clock clock' : Clock} (h : clock.Unset) (h' : clock'.Unset) : Alike clock clock'

theorem Clock.timeticks_inj {clock clock' : Clock} (h : clock.base = clock'.base) :
    clock.timeticks = clock'.timeticks := by
  have hunsigned : clock.timeticks.toUInt32 = clock'.timeticks.toUInt32 := UInt32.toNat_inj.mp h
  simpa using congrArg UInt32.toInt32 hunsigned

theorem Clock.unset_iff (clock : Clock) :
    clock.Unset ↔ clock.base = 0 ∨ 2 ^ 32 - 2 ≤ clock.base := by
  have hbase_one : 2 ^ 32 - 1 = (Clock.mk (-1) 0).base := by decide
  have hbase_two : 2 ^ 32 - 2 = (Clock.mk (-2) 0).base := by decide
  have hminus_one : clock.timeticks = -1 ↔ clock.base = 2 ^ 32 - 1 :=
    ⟨fun h => by rw [Clock.base, h]; rfl, fun h => Clock.timeticks_inj (h.trans hbase_one)⟩
  have hminus_two : clock.timeticks = -2 ↔ clock.base = 2 ^ 32 - 2 :=
    ⟨fun h => by rw [Clock.base, h]; rfl, fun h => Clock.timeticks_inj (h.trans hbase_two)⟩
  have hlt := clock.base_lt
  rw [Clock.Unset, ← clock.base_eq_zero_iff, hminus_one, hminus_two]
  omega

theorem Clock.Unset.rebases {clock : Clock} (h : clock.Unset) {tt : UInt32} (htt : tt ≠ -1) :
    clock.Rebases tt := by
  have hmax : tt.toNat ≠ 2 ^ 32 - 1 := fun heq => htt (UInt32.toNat_inj.mp (heq.trans (by decide)))
  have hlt := tt.toNat_lt
  have hunset := clock.unset_iff.mp h
  unfold Clock.Rebases
  omega

theorem Alike.update_eq {clock clock' : Clock} (h : Alike clock clock') {tt : UInt32}
    (htt : tt ≠ -1) (now : Int) : clock.update tt now = clock'.update tt now := by
  cases h with
  | same => rfl
  | unset h h' =>
      rw [Clock.update_of_rebases (h.rebases htt), Clock.update_of_rebases (h'.rebases htt)]

/-! ## Two runs -/

structure Agree (outcome outcome' : Outcome) : Prop where
  push : outcome.push = outcome'.push
  continuation : outcome.continuation = outcome'.continuation
  clock : Alike outcome.clock outcome'.clock

section

variable {agent : Agent} {cls : SQL_Collection_Class} {host : Host_Info} {clock clock' : Clock}

theorem agree_store_values (h : Alike clock clock') (i : Nat) (c : SQL_Collection)
    (request : Request) (snmp_val : List CStr) :
    Agree (store_values agent cls clock i c request snmp_val)
      (store_values agent cls clock' i c request snmp_val) := by
  simp only [store_values]
  split_ifs with hlength huptime hoid
  · exact ⟨rfl, rfl, h⟩
  · rw [h.update_eq huptime]
    exact ⟨rfl, rfl, .same _⟩
  · rw [h.update_eq huptime]
    exact ⟨rfl, rfl, .same _⟩
  · exact ⟨rfl, rfl, h⟩

theorem agree_collect (h : Alike clock clock') (i : Nat) (c : SQL_Collection) :
    Agree (collect agent cls host clock i c) (collect agent cls host clock' i c) := by
  simp only [collect]
  cases request_variables agent.read_objid cls c with
  | none => exact ⟨rfl, rfl, h⟩
  | some oids =>
      dsimp only
      cases agent.response i ⟨host.ip_address, host.community, oids⟩ with
      | timeout => exact ⟨rfl, rfl, h⟩
      | other => exact ⟨rfl, rfl, h⟩
      | success noerror vars =>
          cases noerror with
          | false => exact ⟨rfl, rfl, h⟩
          | true =>
              simp only [handle_response]
              cases snmp_values vars with
              | exception => exact ⟨rfl, rfl, h⟩
              | undefined => exact ⟨rfl, rfl, h⟩
              | cleaned snmp_val => exact agree_store_values h i c _ snmp_val

theorem agree_collect_all (h : Alike clock clock') (i : Nat) (cs : List SQL_Collection) :
    (collect_all agent cls host clock i cs).map (·.push) =
        (collect_all agent cls host clock' i cs).map (·.push) ∧
      Alike (clock_after clock (collect_all agent cls host clock i cs))
        (clock_after clock' (collect_all agent cls host clock' i cs)) := by
  induction cs generalizing clock clock' i with
  | nil => exact ⟨rfl, h⟩
  | cons c cs ih =>
      have hagree : Agree (collect agent cls host clock i c) (collect agent cls host clock' i c) :=
        agree_collect h i c
      simp only [collect_all, clock_after_cons, List.map_cons, hagree.push, hagree.continuation]
      cases (collect agent cls host clock' i c).continuation with
      | next =>
          obtain ⟨hpush, hclock⟩ := ih hagree.clock (i + 1)
          exact ⟨by rw [hpush], hclock⟩
      | done => exact ⟨rfl, hagree.clock⟩
      | undefined => exact ⟨rfl, hagree.clock⟩

theorem agree_get_collect (agent : Agent) (h : Alike clock clock') (sql_host : SQL_Host) :
    (get_collect agent host cls sql_host clock).1.map (·.push) =
        (get_collect agent host cls sql_host clock').1.map (·.push) ∧
      Alike (clock_after clock (get_collect agent host cls sql_host clock).1)
        (clock_after clock' (get_collect agent host cls sql_host clock').1) := by
  rw [get_collect_outcomes, get_collect_outcomes]
  split_ifs
  · exact agree_collect_all h 0 sql_host.collection
  · exact ⟨rfl, h⟩

theorem same_times_of_alike (h : Alike clock clock') (sql_host : SQL_Host) (agents : List Agent) :
    pushed_times host cls sql_host clock agents = pushed_times host cls sql_host clock' agents := by
  have hpushes : ((rounds host cls sql_host clock agents).flatten.map (·.push)) =
      (rounds host cls sql_host clock' agents).flatten.map (·.push) := by
    induction agents generalizing clock clock' with
    | nil => rfl
    | cons agent agents ih =>
        obtain ⟨hpush, hclock⟩ := agree_get_collect agent h sql_host
        simp only [rounds, List.flatten_cons, List.map_append]
        rw [hpush, ih hclock]
  have htimes := congrArg (List.filterMap (Option.map PushCall.in_time)) hpushes
  rwa [List.filterMap_map, List.filterMap_map] at htimes

end

/-! ## Telling two clocks apart -/

section

variable {clock clock' : Clock}

/-- If the uptime sets one clock and not the other, some present time tells them apart. -/
theorem exists_now_of_rebases {tt : UInt32} (h : clock.Rebases tt) (h' : ¬clock'.Rebases tt) :
    ∃ now, (clock.update tt now).finaltime tt ≠ (clock'.update tt now).finaltime tt := by
  by_cases hzero : clock'.finaltime tt = 0
  · refine ⟨1, ?_⟩
    rw [Clock.finaltime_of_rebases h (by decide) (by decide), Clock.update_of_not_rebases h', hzero]
    decide
  · refine ⟨0, ?_⟩
    rw [Clock.finaltime_of_rebases h le_rfl (by decide), Clock.update_of_not_rebases h']
    exact fun heq => hzero heq.symm

def Clock.next (clock : Clock) : UInt32 := UInt32.ofNat (clock.base + 1)

theorem Clock.next_spec (h : ¬clock.Unset) :
    clock.next.toNat = clock.base + 1 ∧ clock.next ≠ -1 ∧ ¬clock.Rebases clock.next := by
  have hunset := mt clock.unset_iff.mpr h
  have hlt := clock.base_lt
  have hnext : clock.next.toNat = clock.base + 1 := UInt32.toNat_ofNat_of_lt (by
    show clock.base + 1 < 4294967296
    omega)
  refine ⟨hnext, ofNat_ne_neg_one (by omega), ?_⟩
  unfold Clock.Rebases
  omega

theorem exists_push_of_not_unset (hunset : ¬clock.Unset) (hne : clock ≠ clock') :
    ∃ tt now, tt ≠ -1 ∧
      (clock.update tt now).finaltime tt ≠ (clock'.update tt now).finaltime tt := by
  obtain ⟨hnext, hvalid, hkept⟩ := Clock.next_spec hunset
  by_cases hrebases : clock'.Rebases clock.next
  · obtain ⟨now, hnow⟩ := exists_now_of_rebases hrebases hkept
    exact ⟨_, now, hvalid, hnow.symm⟩
  · obtain ⟨hpos, hless, -⟩ := Clock.continues_of_not_rebases hrebases
    by_cases hbase : clock'.base = clock.base
    · refine ⟨_, 0, hvalid, ?_⟩
      rw [Clock.update_of_not_rebases hkept, Clock.update_of_not_rebases hrebases,
        Clock.finaltime_eq (by omega), Clock.finaltime_eq (by omega), hbase]
      intro heq
      have hmytime : clock.mytime = clock'.mytime := Int32.toInt_inj.mp (by omega)
      have hticks : clock.timeticks = clock'.timeticks := Clock.timeticks_inj hbase.symm
      apply hne
      cases clock
      cases clock'
      simp only at hmytime hticks
      rw [hmytime, hticks]
    · have hunset' : ¬clock'.Unset := by
        have hbound := mt clock.unset_iff.mpr hunset
        rw [clock'.unset_iff]
        omega
      obtain ⟨hnext', hvalid', hkept'⟩ := Clock.next_spec hunset'
      have hset : clock.Rebases clock'.next := .inl (by omega)
      obtain ⟨now, hnow⟩ := exists_now_of_rebases hset hkept'
      exact ⟨_, now, hvalid', hnow⟩

theorem exists_push_of_not_alike (h : ¬Alike clock clock') :
    ∃ tt now, tt ≠ -1 ∧
      (clock.update tt now).finaltime tt ≠ (clock'.update tt now).finaltime tt := by
  have hne : clock ≠ clock' := by
    rintro rfl
    exact h (.same clock)
  by_cases hunset : clock.Unset
  · have hunset' : ¬clock'.Unset := fun hunset' => h (.unset hunset hunset')
    obtain ⟨tt, now, htt, hdiffer⟩ := exists_push_of_not_unset hunset' hne.symm
    exact ⟨tt, now, htt, hdiffer.symm⟩
  · exact exists_push_of_not_unset hunset hne

end

/-! ## A run that tells them apart -/

def numbersAgent (size : Nat) (tt : UInt32) (now : Int) : Agent where
  sess_open := true
  read_objid _ := some []
  response _ _ := answer (List.replicate size (.number "Gauge32".toList 7)) tt.toNat []
  time _ := now
  stack _ := []
  token _ := .null

section

variable {cls : SQL_Collection_Class} {host : Host_Info} {clock : Clock}

theorem collect_of_skipped (agent : Agent) (i : Nat) {c : SQL_Collection} (h : c.skipped = true) :
    collect agent cls host clock i c = ⟨none, none, clock, false, .next⟩ := by
  simp [collect, request_variables, h]

theorem collect_numbers (hoid : cls.oid ≠ []) (i : Nat) {c : SQL_Collection}
    (h : c.skipped = false) {tt : UInt32} (htt : tt ≠ -1) (now : Int) :
    (collect (numbersAgent cls.oid.length tt now) cls host clock i c).push.map (·.in_time) =
      some (.fin ((clock.update tt now).finaltime tt)) := by
  have hrequest : request_variables (numbersAgent cls.oid.length tt now).read_objid cls c =
      some ((cls.oid.map (oid_string c)).map (fun _ => []) ++ [timeticks]) := by
    have hread : (cls.oid.map (oid_string c)).mapM (fun _ => some ([] : Oid)) =
        some ((cls.oid.map (oid_string c)).map fun _ => []) := List.mapM_pure
    rw [request_variables, h]
    show ((cls.oid.map (oid_string c)).mapM fun _ => some []).map _ = _
    rw [hread]
    rfl
  have hpos : 1 ≤ cls.oid.length := List.length_pos_iff.mpr hoid
  have hprinted : ∀ r ∈ List.replicate cls.oid.length (Reading.number "Gauge32".toList 7),
      r.Printed := by
    intro r hr
    rw [List.eq_of_mem_replicate hr]
    refine ⟨by decide, by decide, by decide, ?_⟩
    unfold plain
    decide +kernel
  have hticks : tt.toNat < 2 ^ 32 - 1 := by
    have hlt := tt.toNat_lt
    have hmax : tt.toNat ≠ 2 ^ 32 - 1 :=
      fun heq => htt (UInt32.toNat_inj.mp (heq.trans (by decide)))
    omega
  have hanswer := handle_answer (numbersAgent cls.oid.length tt now) clock i c
    ⟨host.ip_address, host.community, (cls.oid.map (oid_string c)).map (fun _ => []) ++ [timeticks]⟩
    [] hpos List.length_replicate hprinted hticks
  rw [UInt32.ofNat_toNat] at hanswer
  have hresponse : (numbersAgent cls.oid.length tt now).response = fun _ _ =>
      answer (List.replicate cls.oid.length (.number "Gauge32".toList 7)) tt.toNat [] := rfl
  rw [collect_of_variables hrequest, hresponse, hanswer]
  rfl

theorem head_pushed (hoid : cls.oid ≠ []) {tt : UInt32} (htt : tt ≠ -1) (now : Int) (i : Nat)
    {cs : List SQL_Collection} (hcs : ∃ c ∈ cs, c.skipped = false) :
    ((collect_all (numbersAgent cls.oid.length tt now) cls host clock i cs).filterMap
        fun outcome => outcome.push.map (·.in_time)).head? =
      some (.fin ((clock.update tt now).finaltime tt)) := by
  induction cs generalizing i with
  | nil => simp at hcs
  | cons c cs ih =>
      rw [collect_all]
      cases hskipped : c.skipped with
      | true =>
          have hrest : ∃ c ∈ cs, c.skipped = false := by
            obtain ⟨c', hmem, hc'⟩ := hcs
            rcases List.mem_cons.mp hmem with rfl | hmem
            · rw [hskipped] at hc'
              cases hc'
            · exact ⟨c', hmem, hc'⟩
          simp only [collect_of_skipped _ i hskipped, List.filterMap_cons, Option.map_none]
          exact ih (i + 1) hrest
      | false =>
          simp only [List.filterMap_cons, collect_numbers hoid i hskipped htt now, List.head?_cons]

theorem pushed_times_eq_nil {sql_host : SQL_Host}
    (h : ∀ agent clock, ∀ outcome ∈ (get_collect agent host cls sql_host clock).1,
      outcome.push = none) (agents : List Agent) :
    pushed_times host cls sql_host clock agents = [] := by
  apply List.filterMap_eq_nil_iff.mpr
  intro outcome hmem
  obtain ⟨outcomes, hround, houtcome⟩ := List.mem_flatten.mp hmem
  have hnone : outcome.push = none := by
    clear hmem
    induction agents generalizing clock with
    | nil => cases hround
    | cons agent agents ih =>
        rcases List.mem_cons.mp hround with rfl | hlater
        · exact h agent clock outcome houtcome
        · exact ih hlater
  rw [hnone]
  rfl

theorem pushed_times_of_skipped {sql_host : SQL_Host}
    (h : ∀ c ∈ sql_host.collection, c.skipped = true) (agents : List Agent) :
    pushed_times host cls sql_host clock agents = [] := by
  apply pushed_times_eq_nil
  intro agent clock outcome hmem
  rw [get_collect_outcomes] at hmem
  split_ifs at hmem
  · obtain ⟨i, hi⟩ := List.mem_iff_getElem?.mp hmem
    obtain ⟨c, hc, rfl⟩ := collect_all_getElem? hi
    rw [collect_of_skipped agent _ (h c (List.mem_of_getElem? hc))]
  · cases hmem

theorem pushed_times_of_no_oid {sql_host : SQL_Host} (h : cls.oid = []) (agents : List Agent) :
    pushed_times host cls sql_host clock agents = [] := by
  apply pushed_times_eq_nil
  intro agent clock outcome hmem
  obtain ⟨i, hi⟩ := List.mem_iff_getElem?.mp hmem
  obtain ⟨clock', c, hcollected⟩ := collected_of_get_collect hi
  exact hcollected.push_of_no_oid h

end

/-- Two runs with the same answers push the same times, whatever these are, exactly if the host
pushes nothing at all or the two clocks are alike. -/
theorem same_times_iff (host : Host_Info) (cls : SQL_Collection_Class) (sql_host : SQL_Host)
    (clock clock' : Clock) :
    (∀ agents, pushed_times host cls sql_host clock agents =
        pushed_times host cls sql_host clock' agents) ↔
      (∀ c ∈ sql_host.collection, c.skipped = true) ∨ cls.oid = [] ∨ Alike clock clock' := by
  constructor
  · intro hsame
    by_contra hnot
    rw [not_or, not_or, not_forall] at hnot
    obtain ⟨⟨c, hc⟩, hoid, halike⟩ := hnot
    rw [Classical.not_imp, Bool.not_eq_true] at hc
    obtain ⟨tt, now, htt, hdiffer⟩ := exists_push_of_not_alike halike
    have hheads := congrArg List.head? (hsame [numbersAgent cls.oid.length tt now])
    have hopen : (numbersAgent cls.oid.length tt now).sess_open = true := rfl
    simp only [pushed_times, rounds, List.flatten_cons, List.flatten_nil, List.append_nil,
      get_collect_outcomes, hopen, if_true, head_pushed hoid htt now 0 ⟨c, hc⟩,
      Option.some.injEq, CFloat.fin.injEq] at hheads
    exact hdiffer (by exact_mod_cast hheads)
  · rintro (hskipped | hoid | halike) agents
    · rw [pushed_times_of_skipped hskipped, pushed_times_of_skipped hskipped]
    · rw [pushed_times_of_no_oid hoid, pushed_times_of_no_oid hoid]
    · exact same_times_of_alike halike sql_host agents

/-- What the memory held decides the first time. -/
theorem first_time_from_memory :
    pushed_times sampleInfo sampleClass sampleHost ⟨0, 0⟩
        [deviceAgent "Gauge32: 7".toList 500 1000] = [.fin (1000 : Int)] ∧
      pushed_times sampleInfo sampleClass sampleHost ⟨400, 12345⟩
        [deviceAgent "Gauge32: 7".toList 500 1000] = [.fin (12346 : Int)] := by
  have hclean : get_clean_snmpvalue "Gauge32: 7".toList = some "7".toList := by decide +kernel
  simp only [pushed_times, rounds, get_collect_device,
    collect_device hclean (show 500 < 2 ^ 32 - 1 by decide), List.flatten_cons, List.flatten_nil,
    List.append_nil, List.filterMap_cons, List.filterMap_nil, Option.map_some]
  have hzero : ((Clock.mk 0 0).update (UInt32.ofNat 500) 1000).finaltime (UInt32.ofNat 500) = 1000 := by
    decide +kernel
  have hstale : ((Clock.mk 400 12345).update (UInt32.ofNat 500) 1000).finaltime
      (UInt32.ofNat 500) = 12346 := by decide +kernel
  rw [hzero, hstale]
  exact ⟨rfl, rfl⟩

end SnappCollector.Collection
