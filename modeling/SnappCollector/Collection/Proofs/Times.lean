import Mathlib.Data.List.Chain
import SnappCollector.Collection.Proofs.Clock
import SnappCollector.Collection.Proofs.RoundTrip

/-!
# The times of a device that keeps running

The uptime of such a device and the wall clock go on together.  The time of a push, set
from the wall clock at the last rebase and from the uptime since, stays within a second
of it.
-/

namespace SnappCollector.Collection

open CLib Writer

/-! ## The clock between two pushes -/

structure Since (clock : Clock) (boot : Int) (wall rebased : Nat) : Prop where
  set : rebased ≤ wall
  recent : wall ≤ rebased + 6000
  base : clock.base = (Instant.mk rebased boot).ticks
  elapsed : clock.base + (wall - rebased) = (Instant.mk wall boot).ticks
  mytime : clock.mytime.toInt = (rebased / 100 : Nat)

section

variable {clock : Clock} {boot : Int} {wall rebased : Nat} {moment : Instant}

theorem since_of_rebases (h : clock.Rebases moment.tt) (hnow : moment.now < 2 ^ 31) :
    Since (clock.update moment.tt moment.now) moment.boot moment.wall moment.wall := by
  rw [Clock.update_of_rebases h]
  unfold Instant.now at hnow ⊢
  refine ⟨le_rfl, by omega, ?_, ?_, ?_⟩
  · rw [Clock.base_toInt32, moment.toNat_tt]
  · rw [Clock.base_toInt32, moment.toNat_tt, Nat.sub_self]
    rfl
  · rw [Int32.toInt_ofInt_of_le (by omega) hnow]
    omega

/-- A push without a rebase: as much has gone by on the wall clock as on the uptime. -/
theorem Since.continue (h : Since clock boot wall rebased) (hboot : moment.boot = boot)
    (hwall : wall ≤ moment.wall) (hclose : moment.wall < wall + 2 ^ 31)
    (hkept : ¬clock.Rebases moment.tt) : Since clock boot moment.wall rebased := by
  obtain ⟨-, hlt, hminute⟩ := Clock.continues_of_not_rebases hkept
  have hset := h.set
  have hrecent := h.recent
  have hbase := h.base
  rw [moment.toNat_tt] at hlt hminute
  have hticks : moment.ticks = (Instant.mk moment.wall boot).ticks := by
    unfold Instant.ticks
    rw [hboot]
  rw [hticks] at hlt hminute
  have hpassed : clock.base + (moment.wall - rebased) = (Instant.mk moment.wall boot).ticks ∧
      moment.wall ≤ rebased + 6000 := by
    unfold Instant.ticks at hbase hlt hminute ⊢
    dsimp only at hbase hlt hminute ⊢
    omega
  exact ⟨by omega, hpassed.2, hbase, hpassed.1, h.mytime⟩

theorem Since.push (h : Since clock boot wall rebased) (hboot : moment.boot = boot)
    (hwall : wall ≤ moment.wall) (hclose : moment.wall < wall + 2 ^ 31)
    (hnow : moment.now < 2 ^ 31) :
    ∃ rebased', Since (clock.update moment.tt moment.now) boot moment.wall rebased' ∧
      (rebased' = rebased ∨ rebased' = moment.wall) := by
  by_cases hrebases : clock.Rebases moment.tt
  · exact ⟨moment.wall, hboot ▸ since_of_rebases hrebases hnow, .inr rfl⟩
  · rw [Clock.update_of_not_rebases hrebases]
    exact ⟨rebased, h.continue hboot hwall hclose hrebases, .inl rfl⟩

def time_since (wall rebased : Nat) : Int := (rebased / 100 + (wall - rebased) / 100 : Nat)

theorem Since.finaltime_eq (h : Since clock boot wall rebased) :
    clock.finaltime (Instant.mk wall boot).tt = time_since wall rebased := by
  have helapsed := h.elapsed
  have htt := (Instant.mk wall boot).toNat_tt
  have hpassed : (Instant.mk wall boot).tt.toNat - clock.base = wall - rebased := by omega
  rw [Clock.finaltime_eq (by omega), hpassed, h.mytime, time_since]
  omega

theorem Since.elapsed_le (h : Since clock boot wall rebased) :
    ((Instant.mk wall boot).tt - clock.timeticks.toUInt32).toNat ≤ 6000 := by
  have helapsed := h.elapsed
  have hset := h.set
  have hrecent := h.recent
  have htt := (Instant.mk wall boot).toNat_tt
  have hsub : ((Instant.mk wall boot).tt - clock.timeticks.toUInt32).toNat =
      (Instant.mk wall boot).tt.toNat - clock.base := by
    apply UInt32.toNat_sub_of_le
    rw [UInt32.le_iff_toNat_le]
    show clock.base ≤ _
    omega
  omega

end

/-! ## Runs -/

/-- A push has a time within a second of the wall clock, and an uptime within a minute of
the stored one. -/
def Accurate (poll : Outcome × Instant) : Prop :=
  ∀ call, poll.1.push = some call →
    ∃ t : Int, call.in_time = .fin t ∧ poll.2.now - 1 ≤ t ∧ t ≤ poll.2.now ∧
      (poll.2.tt - poll.1.clock.timeticks.toUInt32).toNat ≤ 6000

def InOrder (poll later : Outcome × Instant) : Prop :=
  ∀ s t, poll.1.PushedAt s → later.1.PushedAt t → s ≤ t

def pushes (run : List (Outcome × Instant)) : List (Outcome × Instant) :=
  run.filter fun poll => poll.1.push.isSome

theorem pushes_cons_of_none {outcome : Outcome} (hpush : outcome.push = none) (moment : Instant)
    (run : List (Outcome × Instant)) : pushes ((outcome, moment) :: run) = pushes run :=
  List.filter_cons_of_neg (by simp [hpush])

theorem pushes_cons_of_isSome {outcome : Outcome} (hpush : outcome.push.isSome = true)
    (moment : Instant) (run : List (Outcome × Instant)) :
    pushes ((outcome, moment) :: run) = (outcome, moment) :: pushes run :=
  List.filter_cons_of_pos hpush

/-- The device was started once, the wall clock does not go back and fits 31 bits, and from
one push to the next the uptime wraps around less than half. -/
structure Steady (boot : Int) (run : List (Outcome × Instant)) : Prop where
  wall : run.Pairwise fun poll later => poll.2.wall ≤ later.2.wall
  boot : ∀ poll ∈ run, poll.2.boot = boot
  now_lt : ∀ poll ∈ run, poll.2.now < 2 ^ 31
  close : (pushes run).IsChain fun poll next => next.2.wall < poll.2.wall + 2 ^ 31

section

variable {boot : Int} {poll : Outcome × Instant} {run : List (Outcome × Instant)}

theorem Steady.tail (h : Steady boot (poll :: run)) : Steady boot run where
  wall := h.wall.of_cons
  boot a ha := h.boot a (List.mem_cons_of_mem _ ha)
  now_lt a ha := h.now_lt a (List.mem_cons_of_mem _ ha)
  close := by
    have hsuffix : pushes run <:+ pushes (poll :: run) := (List.suffix_cons poll run).filter _
    exact h.close.suffix hsuffix

theorem Steady.next_close (h : Steady boot (poll :: run)) (hpush : poll.1.push.isSome = true) :
    ∀ next ∈ (pushes run).head?, next.2.wall < poll.2.wall + 2 ^ 31 := by
  have hclose := h.close
  rw [pushes_cons_of_isSome hpush] at hclose
  exact fun next hnext => hclose.rel_head? hnext

theorem Outcome.PushedAt.isSome {outcome : Outcome} {t : Int} (h : outcome.PushedAt t) :
    outcome.push.isSome = true := by
  cases hpush : outcome.push with
  | none => simp [Outcome.PushedAt, hpush] at h
  | some call => rfl

theorem Outcome.PushedAt.unique {outcome : Outcome} {s t : Int} (hs : outcome.PushedAt s)
    (ht : outcome.PushedAt t) : s = t := by
  rw [Outcome.PushedAt] at hs ht
  rw [hs, Option.some.injEq, CFloat.fin.injEq] at ht
  exact_mod_cast ht

theorem Outcome.PushedAt.in_time_eq {outcome : Outcome} {t : Int} (h : outcome.PushedAt t)
    {call : PushCall} (hpush : outcome.push = some call) : call.in_time = .fin t := by
  rw [Outcome.PushedAt, hpush] at h
  exact Option.some.inj h

/-! ## A push and those behind it -/

variable {clock : Clock} {wall rebased : Nat}

theorem time_since_le {wall' rebased' : Nat} (hset : rebased ≤ wall) (hwall : wall ≤ wall')
    (hmove : rebased' = rebased ∨ rebased' = wall') :
    time_since wall rebased ≤ time_since wall' rebased' := by
  unfold time_since
  omega

theorem Since.pushedAt {outcome : Outcome} {moment : Instant} (hboot : moment.boot = boot)
    (h : Since outcome.clock boot moment.wall rebased)
    (htime : outcome.PushedAt (outcome.clock.finaltime moment.tt)) :
    outcome.PushedAt (time_since moment.wall rebased) := by
  subst hboot
  rwa [h.finaltime_eq] at htime

theorem Since.accurate {outcome : Outcome} {moment : Instant} (hboot : moment.boot = boot)
    (h : Since outcome.clock boot moment.wall rebased)
    (htime : outcome.PushedAt (time_since moment.wall rebased)) : Accurate (outcome, moment) := by
  intro call hcall
  subst hboot
  have hset := h.set
  have hrecent := h.recent
  refine ⟨_, htime.in_time_eq hcall, ?_, ?_, h.elapsed_le⟩
  · unfold time_since Instant.now
    dsimp only
    omega
  · unfold time_since Instant.now
    dsimp only
    omega

theorem accurate_of_push_eq_none (hpush : poll.1.push = none) : Accurate poll := by
  intro call hcall
  rw [hpush] at hcall
  cases hcall

theorem not_pushedAt_of_push_eq_none {outcome : Outcome} {t : Int} (hpush : outcome.push = none) :
    ¬outcome.PushedAt t := by
  intro htime
  have hsome := htime.isSome
  rw [hpush] at hsome
  cases hsome

/-- From a push on, all pushes are accurate and in order. -/
theorem accurate_from (h : Polled clock run) (hsteady : Steady boot run)
    (hsince : Since clock boot wall rebased) (hlater : ∀ poll ∈ run, wall ≤ poll.2.wall)
    (hclose : ∀ next ∈ (pushes run).head?, next.2.wall < wall + 2 ^ 31) :
    (∀ poll ∈ run, Accurate poll ∧ ∀ t, poll.1.PushedAt t → time_since wall rebased ≤ t) ∧
      run.Pairwise InOrder := by
  induction h generalizing wall rebased with
  | nil clock => simp
  | @quiet clock outcome moment run hpush hclock _ ih =>
      subst hclock
      rw [pushes_cons_of_none hpush] at hclose
      obtain ⟨hall, hpairs⟩ := ih hsteady.tail hsince
        (fun poll hpoll => hlater poll (List.mem_cons_of_mem _ hpoll)) hclose
      refine ⟨List.forall_mem_cons.mpr ⟨⟨accurate_of_push_eq_none hpush, fun t ht => ?_⟩, hall⟩,
        List.pairwise_cons.mpr ⟨fun later _ s t hs => ?_, hpairs⟩⟩
      · exact absurd ht (not_pushedAt_of_push_eq_none hpush)
      · exact absurd hs (not_pushedAt_of_push_eq_none hpush)
  | @pushed clock outcome moment run hclock htime _ ih =>
      have hboot := hsteady.boot _ (List.mem_cons_self ..)
      have hnow := hsteady.now_lt _ (List.mem_cons_self ..)
      have hwall := hlater _ (List.mem_cons_self ..)
      rw [pushes_cons_of_isSome htime.isSome] at hclose
      obtain ⟨rebased', hsince', hmove⟩ := hsince.push hboot hwall (hclose _ rfl) hnow
      rw [← hclock] at hsince'
      have hat := hsince'.pushedAt hboot htime
      obtain ⟨hall, hpairs⟩ := ih hsteady.tail hsince'
        (List.pairwise_cons.mp hsteady.wall).1 (hsteady.next_close htime.isSome)
      have hle := time_since_le hsince.set hwall hmove
      refine ⟨List.forall_mem_cons.mpr ⟨⟨hsince'.accurate hboot hat, fun t ht => ?_⟩,
        fun poll hpoll => ⟨(hall poll hpoll).1, fun t ht => ?_⟩⟩,
        List.pairwise_cons.mpr ⟨fun later hmem s t hs ht => ?_, hpairs⟩⟩
      · rw [ht.unique hat]
        exact hle
      · exact hle.trans ((hall poll hpoll).2 t ht)
      · rw [hs.unique hat]
        exact (hall later hmem).2 t ht

theorem accurate_from_zero (h : Polled clock run) (hsteady : Steady boot run)
    (hzero : clock.timeticks = 0) : (∀ poll ∈ run, Accurate poll) ∧ run.Pairwise InOrder := by
  induction h with
  | nil clock => simp
  | @quiet clock outcome moment run hpush hclock _ ih =>
      subst hclock
      obtain ⟨hall, hpairs⟩ := ih hsteady.tail hzero
      refine ⟨List.forall_mem_cons.mpr ⟨accurate_of_push_eq_none hpush, hall⟩,
        List.pairwise_cons.mpr ⟨fun later _ s t hs => ?_, hpairs⟩⟩
      exact absurd hs (not_pushedAt_of_push_eq_none hpush)
  | @pushed clock outcome moment run hclock htime hrest _ =>
      have hboot := hsteady.boot _ (List.mem_cons_self ..)
      have hnow := hsteady.now_lt _ (List.mem_cons_self ..)
      have hrebases : clock.Rebases moment.tt := .inr (.inl (clock.base_eq_zero_iff.mpr hzero))
      have hsince : Since outcome.clock boot moment.wall moment.wall := by
        rw [hclock, ← hboot]
        exact since_of_rebases hrebases hnow
      have hat := hsince.pushedAt hboot htime
      obtain ⟨hall, hpairs⟩ := accurate_from hrest hsteady.tail hsince
        (List.pairwise_cons.mp hsteady.wall).1 (hsteady.next_close htime.isSome)
      refine ⟨List.forall_mem_cons.mpr ⟨hsince.accurate hboot hat, fun poll hpoll =>
        (hall poll hpoll).1⟩, List.pairwise_cons.mpr ⟨fun later hmem s t hs ht => ?_, hpairs⟩⟩
      rw [hs.unique hat]
      exact (hall later hmem).2 t ht

end

/-! ## Rounds -/

/-- Every push of a host that starts with no `timeticks` and keeps running has a time within
a second of the wall clock, and the times do not go back. -/
theorem times_follow_clock {host : Host_Info} {cls : SQL_Collection_Class} {sql_host : SQL_Host}
    {clock : Clock} {rs : List Round} {boot : Int} (hzero : clock.timeticks = 0)
    (htimed : ∀ round ∈ rs, round.Timed cls)
    (hsteady : Steady boot (timed host cls sql_host clock rs)) :
    (∀ poll ∈ timed host cls sql_host clock rs, Accurate poll) ∧
      (timed host cls sql_host clock rs).Pairwise InOrder := by
  by_cases hoid : cls.oid = []
  · have hnone : ∀ poll ∈ timed host cls sql_host clock rs, poll.1.push = none :=
      fun poll hpoll => push_of_no_oid hoid hpoll
    refine ⟨fun poll hpoll => accurate_of_push_eq_none (hnone poll hpoll), ?_⟩
    apply List.pairwise_iff_forall_sublist.mpr
    intro poll later hsub s t hs
    exact absurd hs (not_pushedAt_of_push_eq_none (hnone poll (hsub.subset (by simp))))
  · exact accurate_from_zero (polled_timed host sql_host hoid htimed clock) hsteady hzero

/-! ## A device with one value -/

def Instant.round (moment : Instant) : Round :=
  ⟨deviceAgent "Gauge32: 7".toList moment.ticks moment.now, fun _ => moment⟩

theorem timed_round (moment : Instant) : moment.round.Timed sampleClass where
  time _ := rfl
  uptime i request vars hresponse _ := by
    cases hresponse
    exact ⟨[], rfl⟩

def sampleOutcome (moment : Instant) (clock : Clock) : Outcome :=
  collect moment.round.agent sampleClass sampleInfo clock 0 sampleCollection

def sampleRun : Clock → List Instant → List (Outcome × Instant)
  | _, [] => []
  | clock, moment :: moments =>
      (sampleOutcome moment clock, moment) :: sampleRun (sampleOutcome moment clock).clock moments

theorem timed_sampleRun (clock : Clock) (moments : List Instant) :
    timed sampleInfo sampleClass sampleHost clock (moments.map Instant.round) =
      sampleRun clock moments := by
  induction moments generalizing clock with
  | nil => rfl
  | cons moment moments ih =>
      have hround : (get_collect moment.round.agent sampleInfo sampleClass sampleHost clock).1 =
          [sampleOutcome moment clock] := get_collect_device _ _ _ clock
      rw [List.map_cons, timed, sampleRun, hround, ← ih]
      rfl

theorem sampleOutcome_spec {moment : Instant} (hticks : moment.ticks < 2 ^ 32 - 1) (clock : Clock) :
    (sampleOutcome moment clock).clock = clock.update moment.tt moment.now ∧
      (sampleOutcome moment clock).PushedAt
        ((clock.update moment.tt moment.now).finaltime moment.tt) := by
  have hclean : get_clean_snmpvalue "Gauge32: 7".toList = some "7".toList := by decide +kernel
  have hcollect : sampleOutcome moment clock = _ := collect_device hclean hticks moment.now clock
  rw [hcollect]
  exact ⟨rfl, rfl⟩

theorem pushes_sampleRun {moments : List Instant} (clock : Clock)
    (hticks : ∀ moment ∈ moments, moment.ticks < 2 ^ 32 - 1) :
    pushes (sampleRun clock moments) = sampleRun clock moments := by
  induction moments generalizing clock with
  | nil => rfl
  | cons moment moments ih =>
      obtain ⟨-, hpush⟩ := sampleOutcome_spec (hticks moment (List.mem_cons_self ..)) clock
      rw [sampleRun, pushes_cons_of_isSome hpush.isSome,
        ih _ fun m hm => hticks m (List.mem_cons_of_mem _ hm)]

theorem times_of_two_polls :
    (∀ poll ∈ timed sampleInfo sampleClass sampleHost ⟨0, 7⟩
        ([⟨1000, 0⟩, ⟨4000, 0⟩].map Instant.round), Accurate poll) ∧
      (timed sampleInfo sampleClass sampleHost ⟨0, 7⟩
        ([⟨1000, 0⟩, ⟨4000, 0⟩].map Instant.round)).Pairwise InOrder := by
  have hsteady : Steady 0 (sampleRun ⟨0, 7⟩ [⟨1000, 0⟩, ⟨4000, 0⟩]) := by
    refine ⟨?_, ?_, ?_, ?_⟩
    · simp [sampleRun]
    · simp [sampleRun]
    · simp [sampleRun, Instant.now]
    · rw [pushes_sampleRun _ (by decide)]
      simp [sampleRun]
  apply times_follow_clock rfl
  · intro round hround
    obtain ⟨moment, -, rfl⟩ := List.mem_map.mp hround
    exact timed_round moment
  · rwa [timed_sampleRun]

end SnappCollector.Collection
