import SnappCollector.Collection.Proofs.Times

/-!
# Reboots of a device

A reboot is inferred from the uptime: it went back, or too far ahead.  A device that
reboots again soon, and is polled when the uptime has just passed the stored one, looks as
if it had gone on.
-/

namespace SnappCollector.Collection

open CLib Writer

/-- At the next moment the device runs on, or it was started again in between. -/
def Instant.Follows (moment next : Instant) : Prop :=
  moment.wall ≤ next.wall ∧
    (next.boot = moment.boot ∨ moment.wall ≤ next.boot ∧ next.boot ≤ next.wall)

/-! ## A clock that was set -/

/-- The clock was set at `rebased`, and the device runs since before that or was started
after it. -/
structure SetAt (clock : Clock) (moment : Instant) (rebased : Nat) : Prop where
  before : rebased ≤ moment.wall
  mytime : clock.mytime.toInt = (rebased / 100 : Nat)
  base : clock.base = (Instant.mk rebased moment.boot).ticks ∨
    rebased ≤ moment.boot ∧ moment.boot ≤ moment.wall

section

variable {clock : Clock} {moment next : Instant} {rebased : Nat}

theorem SetAt.follows (h : SetAt clock moment rebased) (hnext : moment.Follows next) :
    SetAt clock next rebased := by
  obtain ⟨hwall, hboot⟩ := hnext
  have hbefore := h.before
  refine ⟨hbefore.trans hwall, h.mytime, ?_⟩
  rcases hboot with hsame | hrestart
  · rw [hsame]
    rcases h.base with hbase | hlater
    · exact .inl hbase
    · exact .inr ⟨hlater.1, by omega⟩
  · exact .inr ⟨by omega, hrestart.2⟩

theorem setAt_of_rebases (h : clock.Rebases moment.tt) (hnow : moment.now < 2 ^ 31) :
    SetAt (clock.update moment.tt moment.now) moment moment.wall := by
  have hsince := since_of_rebases h hnow
  exact ⟨le_rfl, hsince.mytime, .inl hsince.base⟩

theorem SetAt.finaltime_le (h : SetAt clock moment rebased) (hkept : ¬clock.Rebases moment.tt) :
    clock.finaltime moment.tt ≤ moment.now := by
  obtain ⟨-, hlt, -⟩ := Clock.continues_of_not_rebases hkept
  have hbefore := h.before
  have hpassed : moment.tt.toNat - clock.base ≤ moment.wall - rebased := by
    rw [moment.toNat_tt] at hlt ⊢
    rcases h.base with hbase | hlater
    · unfold Instant.ticks at hbase hlt ⊢
      dsimp only at hbase
      omega
    · unfold Instant.ticks
      omega
  rw [Clock.finaltime_eq hlt.le, h.mytime, Instant.now]
  omega

end

/-! ## Runs -/

section

variable {clock : Clock} {moment : Instant} {rebased : Nat} {run : List (Outcome × Instant)}

theorem pushed_le_of_setAt (h : Polled clock run) (hset : SetAt clock moment rebased)
    (hchain : (moment :: run.map (·.2)).IsChain Instant.Follows)
    (hnow : ∀ poll ∈ run, poll.2.now < 2 ^ 31) :
    ∀ poll ∈ run, ∀ t, poll.1.PushedAt t → t ≤ poll.2.now := by
  induction h generalizing moment rebased with
  | nil clock => simp
  | @quiet clock outcome next run hpush hclock _ ih =>
      obtain ⟨hnext, hrest⟩ := List.isChain_cons_cons.mp hchain
      subst hclock
      have hall := ih (hset.follows hnext) hrest fun poll hpoll =>
        hnow poll (List.mem_cons_of_mem _ hpoll)
      exact List.forall_mem_cons.mpr
        ⟨fun t ht => absurd ht (not_pushedAt_of_push_eq_none hpush), hall⟩
  | @pushed clock outcome next run hclock htime _ ih =>
      obtain ⟨hnext, hrest⟩ := List.isChain_cons_cons.mp hchain
      have hhere := hset.follows hnext
      have hlt := hnow _ (List.mem_cons_self ..)
      have hmove : outcome.clock.finaltime next.tt ≤ next.now ∧
          ∃ rebased', SetAt outcome.clock next rebased' := by
        rw [hclock]
        by_cases hrebases : clock.Rebases next.tt
        · rw [Clock.finaltime_of_rebases hrebases (by unfold Instant.now; omega) hlt]
          exact ⟨le_rfl, _, setAt_of_rebases hrebases hlt⟩
        · rw [Clock.update_of_not_rebases hrebases]
          exact ⟨hhere.finaltime_le hrebases, _, hhere⟩
      obtain ⟨hle, rebased', hset'⟩ := hmove
      have hall := ih hset' hrest fun poll hpoll => hnow poll (List.mem_cons_of_mem _ hpoll)
      refine List.forall_mem_cons.mpr ⟨fun t ht => ?_, hall⟩
      rw [ht.unique htime]
      exact hle

/-- Only a push with what the clock held at first can run ahead. -/
theorem pushed_le_or_initial (h : Polled clock run)
    (hchain : (run.map (·.2)).IsChain Instant.Follows)
    (hnow : ∀ poll ∈ run, poll.2.now < 2 ^ 31) :
    ∀ poll ∈ run, ∀ t, poll.1.PushedAt t → poll.1.clock = clock ∨ t ≤ poll.2.now := by
  induction h with
  | nil clock => simp
  | @quiet clock outcome next run hpush hclock _ ih =>
      subst hclock
      have hall := ih hchain.tail fun poll hpoll => hnow poll (List.mem_cons_of_mem _ hpoll)
      exact List.forall_mem_cons.mpr
        ⟨fun t ht => absurd ht (not_pushedAt_of_push_eq_none hpush), hall⟩
  | @pushed clock outcome next run hclock htime hrun ih =>
      have hlt := hnow _ (List.mem_cons_self ..)
      have hrest := fun poll hpoll => hnow poll (List.mem_cons_of_mem _ hpoll)
      by_cases hrebases : clock.Rebases next.tt
      · have hset : SetAt outcome.clock next next.wall := hclock ▸ setAt_of_rebases hrebases hlt
        refine List.forall_mem_cons.mpr ⟨fun t ht => .inr ?_, fun poll hpoll t ht => .inr ?_⟩
        · rw [ht.unique htime, hclock,
            Clock.finaltime_of_rebases hrebases (by unfold Instant.now; omega) hlt]
        · exact pushed_le_of_setAt hrun hset hchain hrest poll hpoll t ht
      · rw [Clock.update_of_not_rebases hrebases] at hclock
        have hall := ih hchain.tail hrest
        rw [hclock] at hall
        exact List.forall_mem_cons.mpr ⟨fun t _ => .inl hclock, hall⟩

end

/-! ## Noticing a reboot -/

/-- The poll sets the clock anew, and pushes the present time, which is not behind a time that
was pushed before. -/
structure Noticed (before : List (Outcome × Instant)) (poll : Outcome × Instant)
    (call : PushCall) : Prop where
  rebased : poll.1.clock = ⟨poll.2.tt.toInt32, Int32.ofInt poll.2.now⟩
  time : call.in_time = .fin poll.2.now
  latest : ∀ earlier ∈ before, ∀ t, earlier.1.PushedAt t → t ≤ poll.2.now

/-- The uptime is not one to a minute's worth of ticks above a stored one, the time fits 31
bits, and what the clock held at first has not led to a time in the future. -/
structure Noticeable (clock : Clock) (before : List (Outcome × Instant))
    (poll : Outcome × Instant) : Prop where
  rebases : (clock_after clock (before.map (·.1))).Rebases poll.2.tt
  now_lt : poll.2.now < 2 ^ 31
  initial : ∀ earlier ∈ before, earlier.1.clock = clock →
    ∀ t, earlier.1.PushedAt t → t ≤ poll.2.now

theorem wall_le_of_follows {before : List (Outcome × Instant)} {poll : Outcome × Instant}
    (hchain : ((before ++ [poll]).map (·.2)).IsChain Instant.Follows) :
    ∀ earlier ∈ before, earlier.2.wall ≤ poll.2.wall := by
  have hwalls : ((before ++ [poll]).map (·.2)).IsChain fun moment next => moment.wall ≤ next.wall :=
    hchain.imp fun moment next hnext => hnext.1
  have htrans : IsTrans Instant fun moment next => moment.wall ≤ next.wall := ⟨fun _ _ _ => le_trans⟩
  have hpairs := hwalls.pairwise
  rw [List.map_append, List.pairwise_append] at hpairs
  intro earlier hearlier
  exact hpairs.2.2 _ (List.mem_map_of_mem hearlier) _ (by simp)

theorem latest_of_initial {clock : Clock} {before : List (Outcome × Instant)}
    {poll : Outcome × Instant} (hbefore : Polled clock before)
    (hchain : ((before ++ [poll]).map (·.2)).IsChain Instant.Follows) (hlt : poll.2.now < 2 ^ 31)
    (hinitial : ∀ earlier ∈ before, earlier.1.clock = clock →
      ∀ t, earlier.1.PushedAt t → t ≤ poll.2.now) :
    ∀ earlier ∈ before, ∀ t, earlier.1.PushedAt t → t ≤ poll.2.now := by
  have hnow : ∀ earlier ∈ before, earlier.2.now ≤ poll.2.now := by
    intro earlier hearlier
    have hle := wall_le_of_follows hchain earlier hearlier
    unfold Instant.now
    omega
  have hfits : ∀ earlier ∈ before, earlier.2.now < 2 ^ 31 := fun earlier hearlier =>
    (hnow earlier hearlier).trans_lt hlt
  rw [List.map_append] at hchain
  intro earlier hearlier t ht
  rcases pushed_le_or_initial hbefore hchain.left_of_append hfits earlier hearlier t ht with
    hfirst | hle
  · exact hinitial earlier hearlier hfirst t ht
  · exact hle.trans (hnow earlier hearlier)

/-- Every push, and so the first one after a reboot, sets the clock anew exactly if the uptime
shows it. -/
theorem noticed_iff_noticeable {host : Host_Info} {cls : SQL_Collection_Class}
    {sql_host : SQL_Host} {clock : Clock} {rs : List Round}
    (htimed : ∀ round ∈ rs, round.Timed cls)
    (hfollows : ((timed host cls sql_host clock rs).map (·.2)).IsChain Instant.Follows)
    {before after : List (Outcome × Instant)} {poll : Outcome × Instant}
    (hsplit : timed host cls sql_host clock rs = before ++ poll :: after) {call : PushCall}
    (hpush : poll.1.push = some call) :
    Noticed before poll call ↔ Noticeable clock before poll := by
  obtain ⟨outcome, moment⟩ := poll
  have hmem : (outcome, moment) ∈ timed host cls sql_host clock rs := by
    rw [hsplit]
    exact List.mem_append_right _ (List.mem_cons_self ..)
  have hoid : cls.oid ≠ [] := by
    intro hnone
    rw [push_of_no_oid hnone hmem] at hpush
    cases hpush
  have hpolled := polled_timed host sql_host hoid htimed clock
  rw [hsplit] at hpolled hfollows
  rw [List.append_cons, List.map_append] at hfollows
  have hchain := hfollows.left_of_append
  obtain ⟨hbefore, hhere⟩ := hpolled.split
  cases hhere with
  | quiet hnone => simp [hnone] at hpush
  | pushed hclock htime _ =>
      constructor
      · intro hnoticed
        have hrebased := hnoticed.rebased
        have hset := hrebased
        rw [hclock] at hset
        refine ⟨Clock.rebases_of_update_eq hset, ?_, fun earlier hearlier _ =>
          hnoticed.latest earlier hearlier⟩
        have hat : outcome.PushedAt moment.now := by
          rw [Outcome.PushedAt, hpush, Option.map_some, hnoticed.time]
        have hnow := hat.unique htime
        rw [hrebased, Clock.finaltime_toInt32] at hnow
        have hfits : (Int32.ofInt moment.now).toInt < 2 ^ 31 := (Int32.ofInt moment.now).toInt_lt
        exact hnow.trans_lt hfits
      · intro hnoticeable
        refine ⟨?_, ?_, latest_of_initial hbefore hchain hnoticeable.now_lt hnoticeable.initial⟩
        · rw [hclock]
          exact Clock.update_of_rebases hnoticeable.rebases moment.now
        · rw [hclock, Clock.finaltime_of_rebases hnoticeable.rebases (by unfold Instant.now; omega)
            hnoticeable.now_lt] at htime
          exact htime.in_time_eq hpush

/-! ## A reboot that is not noticed -/

/-- The device is polled 1 s and 51 s after its start, and once more 2 s after a reboot. -/
def rebootMoments : List Instant := [⟨100, 0⟩, ⟨5100, 0⟩, ⟨5400, 5200⟩]

theorem sampleOutcome_eq (moment : Instant) (clock clock' : Clock) (t : Int)
    (hticks : moment.ticks < 2 ^ 32 - 1) (hupdate : clock.update moment.tt moment.now = clock')
    (htime : clock'.finaltime moment.tt = t) :
    (sampleOutcome moment clock).clock = clock' ∧ (sampleOutcome moment clock).PushedAt t := by
  obtain ⟨hclock, hpushed⟩ := sampleOutcome_spec hticks clock
  rw [hupdate] at hclock hpushed
  rw [htime] at hpushed
  exact ⟨hclock, hpushed⟩

/-- A reboot long after the start is noticed. -/
theorem noticed_reboot :
    ∃ before poll call,
      timed sampleInfo sampleClass sampleHost ⟨0, 7⟩
          ([⟨10000, 0⟩, ⟨20000, 19900⟩].map Instant.round) = before ++ [poll] ∧
        poll.1.push = some call ∧ Noticed before poll call := by
  obtain ⟨hclock, -⟩ := sampleOutcome_eq ⟨10000, 0⟩ ⟨0, 7⟩ ⟨10000, 100⟩ 100
    (by decide) (by decide +kernel) (by decide +kernel)
  obtain ⟨-, htime⟩ := sampleOutcome_eq ⟨20000, 19900⟩ ⟨10000, 100⟩ ⟨100, 200⟩ 200
    (by decide) (by decide +kernel) (by decide +kernel)
  obtain ⟨call, hcall⟩ := Option.isSome_iff_exists.mp htime.isSome
  have hrun : timed sampleInfo sampleClass sampleHost ⟨0, 7⟩
      ([⟨10000, 0⟩, ⟨20000, 19900⟩].map Instant.round) =
        [(sampleOutcome ⟨10000, 0⟩ ⟨0, 7⟩, ⟨10000, 0⟩)] ++
          [(sampleOutcome ⟨20000, 19900⟩ ⟨10000, 100⟩, ⟨20000, 19900⟩)] := by
    rw [timed_sampleRun, sampleRun, sampleRun, hclock]
    rfl
  refine ⟨_, _, call, hrun, hcall, (noticed_iff_noticeable ?_ ?_ hrun hcall).mpr ⟨?_, ?_, ?_⟩⟩
  · intro round hround
    obtain ⟨moment, -, rfl⟩ := List.mem_map.mp hround
    exact timed_round moment
  · rw [hrun]
    simp [Instant.Follows]
  · left
    simp only [List.map_cons, List.map_nil, clock_after, List.getLast?_singleton, Option.map_some,
      Option.getD_some, hclock]
    decide +kernel
  · decide
  · intro earlier hearlier hsame
    rw [List.mem_singleton.mp hearlier, hclock] at hsame
    exact absurd hsame (by decide)

/-- The third time lies before the second, and before the present. -/
theorem unnoticed_reboot :
    rebootMoments.IsChain Instant.Follows ∧
      ∃ before poll,
        timed sampleInfo sampleClass sampleHost ⟨0, 7⟩ (rebootMoments.map Instant.round) =
            before ++ [poll] ∧
          poll.2.now = 54 ∧ (∃ earlier ∈ before, earlier.1.PushedAt 51) ∧ poll.1.PushedAt 2 ∧
          ∀ call, ¬Noticed before poll call := by
  obtain ⟨hclock₁, -⟩ := sampleOutcome_eq ⟨100, 0⟩ ⟨0, 7⟩ ⟨100, 1⟩ 1
    (by decide) (by decide +kernel) (by decide +kernel)
  obtain ⟨hclock₂, htime₂⟩ := sampleOutcome_eq ⟨5100, 0⟩ ⟨100, 1⟩ ⟨100, 1⟩ 51
    (by decide) (by decide +kernel) (by decide +kernel)
  obtain ⟨hclock₃, htime₃⟩ := sampleOutcome_eq ⟨5400, 5200⟩ ⟨100, 1⟩ ⟨100, 1⟩ 2
    (by decide) (by decide +kernel) (by decide +kernel)
  have hrun : timed sampleInfo sampleClass sampleHost ⟨0, 7⟩ (rebootMoments.map Instant.round) =
      [(sampleOutcome ⟨100, 0⟩ ⟨0, 7⟩, ⟨100, 0⟩),
        (sampleOutcome ⟨5100, 0⟩ ⟨100, 1⟩, ⟨5100, 0⟩)] ++
        [(sampleOutcome ⟨5400, 5200⟩ ⟨100, 1⟩, ⟨5400, 5200⟩)] := by
    rw [timed_sampleRun, rebootMoments, sampleRun, sampleRun, sampleRun, hclock₁, hclock₂]
    rfl
  refine ⟨by simp [rebootMoments, Instant.Follows], _, _, hrun, by decide,
    ⟨_, List.mem_cons_of_mem _ (List.mem_cons_self ..), htime₂⟩, htime₃, fun call hnoticed => ?_⟩
  have hrebased := hnoticed.rebased
  rw [hclock₃] at hrebased
  exact absurd hrebased (by decide +kernel)

end SnappCollector.Collection
