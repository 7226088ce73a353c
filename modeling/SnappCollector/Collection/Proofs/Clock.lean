import SnappCollector.Collection.Proofs.Pushes
import SnappCollector.Data.Loops

/-!
# The times of a host

The time of a push is that of the last rebase and the uptime since then.  What one push
does to the clock, and a run as a list of pushes.
-/

namespace SnappCollector.Collection

open CLib Data Writer

/-! ## One push -/

def Instant.tt (moment : Instant) : UInt32 := UInt32.ofNat moment.ticks

def Clock.base (clock : Clock) : Nat := clock.timeticks.toUInt32.toNat

theorem Instant.ticks_lt (moment : Instant) : moment.ticks < 2 ^ 32 := by
  unfold Instant.ticks
  omega

theorem Instant.toNat_tt (moment : Instant) : moment.tt.toNat = moment.ticks :=
  UInt32.toNat_ofNat_of_lt moment.ticks_lt

theorem Clock.base_lt (clock : Clock) : clock.base < 2 ^ 32 := clock.timeticks.toUInt32.toNat_lt

theorem Clock.base_eq_zero_iff (clock : Clock) : clock.base = 0 ↔ clock.timeticks = 0 := by
  constructor
  · intro hzero
    have hunsigned : clock.timeticks.toUInt32 = 0 := UInt32.toNat_inj.mp hzero
    simpa using congrArg UInt32.toInt32 hunsigned
  · intro hzero
    rw [Clock.base, hzero]
    rfl

/-- The uptime does not continue that of the last rebase. -/
def Clock.Rebases (clock : Clock) (tt : UInt32) : Prop :=
  tt.toNat ≤ clock.base ∨ clock.base = 0 ∨ 6000 < tt.toNat - clock.base

variable {clock : Clock} {tt : UInt32}

/-- The test of `get_collect`, in unsigned arithmetic. -/
theorem Clock.rebases_iff (clock : Clock) (tt : UInt32) :
    clock.Rebases tt ↔ tt ≤ clock.timeticks.toUInt32 ∨ clock.timeticks = 0 ∨
      tt - clock.timeticks.toUInt32 > 6000 := by
  unfold Clock.Rebases
  rw [clock.base_eq_zero_iff, UInt32.le_iff_toNat_le, gt_iff_lt, UInt32.lt_iff_toNat_lt]
  by_cases hle : tt.toNat ≤ clock.base
  · exact iff_of_true (.inl hle) (.inl hle)
  · have hsub : (tt - clock.timeticks.toUInt32).toNat = tt.toNat - clock.base :=
      UInt32.toNat_sub_of_le _ _ (UInt32.le_iff_toNat_le.mpr (le_of_not_ge hle))
    rw [hsub]
    rfl

theorem Clock.update_of_rebases (h : clock.Rebases tt) (now : Int) :
    clock.update tt now = ⟨tt.toInt32, Int32.ofInt now⟩ :=
  if_pos ((clock.rebases_iff tt).mp h)

theorem Clock.update_of_not_rebases (h : ¬clock.Rebases tt) (now : Int) :
    clock.update tt now = clock :=
  if_neg fun hcode => h ((clock.rebases_iff tt).mpr hcode)

@[simp] theorem Clock.base_toInt32 (tt : UInt32) (mytime : Int32) :
    (Clock.mk tt.toInt32 mytime).base = tt.toNat := rfl

/-- The time of a push lies as far behind the rebase as the uptime. -/
theorem Clock.finaltime_eq (h : clock.base ≤ tt.toNat) :
    clock.finaltime tt = clock.mytime.toInt + ((tt.toNat - clock.base) / 100 : Nat) := by
  have hsub : (tt - clock.timeticks.toUInt32).toNat = tt.toNat - clock.base :=
    UInt32.toNat_sub_of_le _ _ (UInt32.le_iff_toNat_le.mpr h)
  rw [Clock.finaltime, Clock.totaltime, UInt32.toNat_div, hsub]
  rfl

theorem Clock.finaltime_toInt32 (tt : UInt32) (mytime : Int32) :
    (Clock.mk tt.toInt32 mytime).finaltime tt = mytime.toInt := by
  have hbase : (Clock.mk tt.toInt32 mytime).base ≤ tt.toNat := le_rfl
  rw [Clock.finaltime_eq hbase, Clock.base_toInt32]
  simp

theorem Clock.finaltime_of_rebases (h : clock.Rebases tt) {now : Int} (hpos : 0 ≤ now)
    (hnow : now < 2 ^ 31) : (clock.update tt now).finaltime tt = now := by
  rw [clock.update_of_rebases h, Clock.finaltime_toInt32, Int32.toInt_ofInt_of_le (by omega) hnow]

/-- Without a rebase the uptime has gone on since the last one, for at most a minute. -/
theorem Clock.continues_of_not_rebases (h : ¬clock.Rebases tt) :
    clock.base ≠ 0 ∧ clock.base < tt.toNat ∧ tt.toNat - clock.base ≤ 6000 := by
  unfold Clock.Rebases at h
  omega

theorem Clock.rebases_of_update_eq {now : Int}
    (h : clock.update tt now = ⟨tt.toInt32, Int32.ofInt now⟩) : clock.Rebases tt := by
  by_contra hkept
  have hless := (Clock.continues_of_not_rebases hkept).2.1
  rw [Clock.update_of_not_rebases hkept] at h
  rw [h, Clock.base_toInt32] at hless
  exact lt_irrefl _ hless

/-! ## A round -/

inductive Loop (agent : Agent) (cls : SQL_Collection_Class) :
    Clock → Nat → List Outcome → Prop where
  | nil (clock : Clock) (i : Nat) : Loop agent cls clock i []
  | cons {clock : Clock} {i : Nat} {c : SQL_Collection} {outcome : Outcome}
      {outcomes : List Outcome} (hcollected : Collected agent cls clock i c outcome)
      (hrest : Loop agent cls outcome.clock (i + 1) outcomes) :
      Loop agent cls clock i (outcome :: outcomes)

theorem loop_collect_all (agent : Agent) (cls : SQL_Collection_Class) (host : Host_Info)
    (clock : Clock) (i : Nat) (cs : List SQL_Collection) :
    Loop agent cls clock i (collect_all agent cls host clock i cs) := by
  induction cs generalizing clock i with
  | nil => exact .nil clock i
  | cons c cs ih =>
      rw [collect_all]
      refine .cons (collected agent cls host clock i c) ?_
      split
      · exact ih _ _
      · exact .nil _ _

theorem loop_get_collect (agent : Agent) (host : Host_Info) (cls : SQL_Collection_Class)
    (sql_host : SQL_Host) (clock : Clock) :
    Loop agent cls clock 0 (get_collect agent host cls sql_host clock).1 := by
  rw [get_collect_outcomes]
  split_ifs
  · exact loop_collect_all agent cls host clock 0 sql_host.collection
  · exact .nil clock 0

/-! ## A run -/

def Outcome.PushedAt (outcome : Outcome) (t : Int) : Prop :=
  outcome.push.map (·.in_time) = some (.fin t)

inductive Polled : Clock → List (Outcome × Instant) → Prop where
  | nil (clock : Clock) : Polled clock []
  | quiet {clock : Clock} {outcome : Outcome} {moment : Instant} {run : List (Outcome × Instant)}
      (hpush : outcome.push = none) (hclock : outcome.clock = clock)
      (hrest : Polled outcome.clock run) : Polled clock ((outcome, moment) :: run)
  | pushed {clock : Clock} {outcome : Outcome} {moment : Instant}
      {run : List (Outcome × Instant)}
      (hclock : outcome.clock = clock.update moment.tt moment.now)
      (htime : outcome.PushedAt (outcome.clock.finaltime moment.tt))
      (hrest : Polled outcome.clock run) : Polled clock ((outcome, moment) :: run)

variable {cls : SQL_Collection_Class} {round : Round}

theorem Round.Timed.uptime_eq (h : round.Timed cls) {i : Nat} {request : Request}
    {vars : List Variable} {snmp_val : List CStr}
    (hresponse : round.agent.response i request = .success true vars)
    (hvalues : snmp_values vars = .cleaned snmp_val)
    (hlength : snmp_val.length = cls.oid.length + 1) :
    Collection.uptime cls snmp_val = (round.instant i).tt := by
  have hcleans := cleans_of_snmp_values hvalues
  obtain ⟨rest, hlast⟩ :=
    h.uptime i request vars hresponse (by rw [hcleans.length_eq, hlength])
  obtain ⟨value, hvalue, hclean⟩ := getElem?_of_forall₂ hcleans hlast
  cases hclean with
  | value hclean =>
      rw [get_clean_snmpvalue_timeticks, Option.some.injEq] at hclean
      rw [← hclean] at hvalue
      exact uptime_dec hvalue (round.instant i).ticks_lt

theorem Polled.split {clock : Clock} {before run : List (Outcome × Instant)}
    (h : Polled clock (before ++ run)) :
    Polled clock before ∧ Polled (clock_after clock (before.map (·.1))) run := by
  induction before generalizing clock with
  | nil => exact ⟨.nil clock, h⟩
  | cons poll before ih =>
      rw [List.map_cons, clock_after_cons]
      cases h with
      | quiet hpush hclock hrest => exact ⟨.quiet hpush hclock (ih hrest).1, (ih hrest).2⟩
      | pushed hclock htime hrest => exact ⟨.pushed hclock htime (ih hrest).1, (ih hrest).2⟩

theorem polled_of_loop (htimed : round.Timed cls) (hoid : cls.oid ≠ []) {clock : Clock} {i : Nat}
    {outcomes : List Outcome} {run : List (Outcome × Instant)}
    (hloop : Loop round.agent cls clock i outcomes)
    (hrest : Polled (clock_after clock outcomes) run) :
    Polled clock (((outcomes.zipIdx i).map fun (outcome, i) => (outcome, round.instant i)) ++ run) := by
  induction hloop with
  | nil clock i => exact hrest
  | @cons clock i c outcome outcomes hcollected _ ih =>
      rw [clock_after_cons] at hrest
      have htail := ih hrest
      cases hcollected with
      | unchanged hpush hclock => exact .quiet hpush hclock htail
      | no_oid hnone => exact absurd hnone hoid
      | pushed request vars snmp_val _ hresponse hvalues hlength _ _ hclock hpush =>
          have huptime := htimed.uptime_eq hresponse hvalues hlength
          rw [huptime, htimed.time] at hclock
          rw [huptime] at hpush
          exact .pushed hclock (by rw [Outcome.PushedAt, hpush]; rfl) htail

theorem collected_of_mem_timed {host : Host_Info} {sql_host : SQL_Host} {clock : Clock}
    {rs : List Round} {poll : Outcome × Instant} (h : poll ∈ timed host cls sql_host clock rs) :
    ∃ round ∈ rs, ∃ clock' i c, Collected round.agent cls clock' i c poll.1 ∧
      poll.2 = round.instant i := by
  induction rs generalizing clock with
  | nil => simp [timed] at h
  | cons round rest ih =>
      rcases List.mem_append.mp h with hhere | hlater
      · obtain ⟨⟨outcome, i⟩, hmem, rfl⟩ := List.mem_map.mp hhere
        obtain ⟨clock', c, hcollected⟩ :=
          collected_of_get_collect (List.mk_mem_zipIdx_iff_getElem?.mp hmem)
        exact ⟨round, List.mem_cons_self .., clock', i, c, hcollected, rfl⟩
      · obtain ⟨round', hround', hfound⟩ := ih hlater
        exact ⟨round', List.mem_cons_of_mem _ hround', hfound⟩

theorem push_of_no_oid {host : Host_Info} {sql_host : SQL_Host} {clock : Clock} {rs : List Round}
    {poll : Outcome × Instant} (hoid : cls.oid = [])
    (h : poll ∈ timed host cls sql_host clock rs) : poll.1.push = none := by
  obtain ⟨round, -, clock', i, c, hcollected, -⟩ := collected_of_mem_timed h
  exact hcollected.push_of_no_oid hoid

/-- Every run of timed rounds is a sequence of pushes with quiet outcomes between them. -/
theorem polled_timed (host : Host_Info) (sql_host : SQL_Host) (hoid : cls.oid ≠ [])
    {rs : List Round} (htimed : ∀ round ∈ rs, round.Timed cls) (clock : Clock) :
    Polled clock (timed host cls sql_host clock rs) := by
  induction rs generalizing clock with
  | nil => exact .nil clock
  | cons round rest ih =>
      apply polled_of_loop (htimed round (List.mem_cons_self ..)) hoid
      · exact loop_get_collect round.agent host cls sql_host clock
      · exact ih (fun r hr => htimed r (List.mem_cons_of_mem _ hr)) _

end SnappCollector.Collection
