import SnappCollector.Collection.GetCollect

/-!
# The rounds of a host

A host is polled round after round, and only its `timeticks` and `mytime` go from one
round to the next.  Nothing gives them a first value: the entry that
`load_collection_class_block` copies into the class has what the memory held.
-/

namespace SnappCollector.Collection

open CLib Writer

/-- The clock that the outcomes of a round leave behind. -/
def clock_after (clock : Clock) (outcomes : List Outcome) : Clock :=
  (outcomes.getLast?.map (·.clock)).getD clock

theorem clock_after_cons (clock : Clock) (outcome : Outcome) (outcomes : List Outcome) :
    clock_after clock (outcome :: outcomes) = clock_after outcome.clock outcomes := by
  cases outcomes with
  | nil => rfl
  | cons next outcomes =>
      have hlast : (next :: outcomes).getLast? = some ((next :: outcomes).getLast (by simp)) :=
        List.getLast?_eq_some_getLast _
      rw [clock_after, clock_after, List.getLast?_cons_cons, hlast]
      rfl

def rounds (host : Host_Info) (cls : SQL_Collection_Class) (sql_host : SQL_Host) :
    Clock → List Agent → List (List Outcome)
  | _, [] => []
  | clock, agent :: agents =>
      let outcomes := (get_collect agent host cls sql_host clock).1
      outcomes :: rounds host cls sql_host (clock_after clock outcomes) agents

def pushed_times (host : Host_Info) (cls : SQL_Collection_Class) (sql_host : SQL_Host)
    (clock : Clock) (agents : List Agent) : List CFloat :=
  (rounds host cls sql_host clock agents).flatten.filterMap fun outcome =>
    outcome.push.map (·.in_time)

/-! ## Moments -/

/-- A moment: the wall clock in hundredths of a second, and when the device was started. -/
structure Instant where
  wall : Nat
  boot : Int

def Instant.now (moment : Instant) : Int := moment.wall / 100

/-- The uptime of the device, a counter of 32 bits. -/
def Instant.ticks (moment : Instant) : Nat := ((moment.wall - moment.boot) % 2 ^ 32).toNat

structure Round where
  agent : Agent
  instant : Nat → Instant

/-- The clock shows the moment, and so does the uptime in every answer with a value for each
OID. -/
structure Round.Timed (cls : SQL_Collection_Class) (round : Round) : Prop where
  time : ∀ i, round.agent.time i = (round.instant i).now
  uptime : ∀ i request vars, round.agent.response i request = .success true vars →
    vars.length = cls.oid.length + 1 →
      ∃ rest, vars[cls.oid.length]? =
        some ⟨.value, timeticks_text (round.instant i).ticks rest⟩

def timed (host : Host_Info) (cls : SQL_Collection_Class) (sql_host : SQL_Host) :
    Clock → List Round → List (Outcome × Instant)
  | _, [] => []
  | clock, round :: rest =>
      let outcomes := (get_collect round.agent host cls sql_host clock).1
      (outcomes.zipIdx.map fun (outcome, i) => (outcome, round.instant i)) ++
        timed host cls sql_host (clock_after clock outcomes) rest

theorem timed_outcomes (host : Host_Info) (cls : SQL_Collection_Class) (sql_host : SQL_Host)
    (clock : Clock) (rs : List Round) :
    (timed host cls sql_host clock rs).map (·.1) =
      (rounds host cls sql_host clock (rs.map (·.agent))).flatten := by
  induction rs generalizing clock with
  | nil => rfl
  | cons round rest ih =>
      rw [timed, List.map_cons, rounds, List.flatten_cons, List.map_append, ih, List.map_map]
      congr 1
      exact List.zipIdx_map_fst 0 _

end SnappCollector.Collection
