import SnappCollector.Machine.Pool
import SnappCollector.Machine.Runs

/-!
# The SNMP sessions

All collection workers of all configurations, and `load_host_tables` with the threads
that it starts, share one semaphore that limits the SNMP sessions.  A worker takes a
slot for one call of `get_collect`; `load_host_tables` takes one for every host, which
the thread of the host gives back.

How many collections or OIDs a host has, and how every call of net-snmp ends, is up to
the environment.  A failed assertion or an exception ends the process and with it the
run.
-/

namespace SnappCollector.Sessions

inductive Effect where
  | none
  | sem_wait
  | sem_post
  | snmp_sess_open
  | snmp_sess_close
deriving DecidableEq

/-! ## Workers -/

inductive CollectionEnd where
  | unmapped
  /-- `read_objid` failed -/
  | unparsable
  | exception_value
  /-- the timeticks are -1 -/
  | bad_timeticks
  | pushed
  | push_failed
  | size_mismatch
  | error_response
  | timeout
  | misc_error
deriving DecidableEq

/-- The rounds that go to `done`; the others go to `end_of_single_collection`. -/
def CollectionEnd.goes_to_done : CollectionEnd → Bool
  | .bad_timeticks | .timeout | .misc_error => true
  | .unmapped | .unparsable | .exception_value | .pushed | .push_failed | .size_mismatch
  | .error_response => false

inductive WorkerPlace where
  | waiting
  /-- at `sem_wait`, with a host of so many collections -/
  | session_wait (collections : Nat)
  /-- at `snmp_sess_open` -/
  | opening (collections : Nat)
  /-- at the head of the loop, with so many collections to go -/
  | collection (left : Nat)
  | done
  | returned
  | finished
deriving DecidableEq

inductive WorkerAction where
  /-- a popped host index, or -1 -/
  | pop (collections : Option Nat)
  | sem_wait
  | snmp_sess_open (opened : Bool)
  | collection (e : CollectionEnd)
  | snmp_sess_close
  | sem_post
deriving DecidableEq

def workerStep : WorkerPlace → WorkerAction → Option (WorkerPlace × Effect)
  | .waiting, .pop none => some (.finished, .none)
  | .waiting, .pop (some collections) => some (.session_wait collections, .none)
  | .session_wait collections, .sem_wait => some (.opening collections, .sem_wait)
  | .opening collections, .snmp_sess_open true => some (.collection collections, .snmp_sess_open)
  | .opening _, .snmp_sess_open false => some (.returned, .none)
  | .collection (left + 1), .collection e =>
      some (if e.goes_to_done then .done else .collection left, .none)
  -- the loop is over
  | .collection 0, .snmp_sess_close => some (.returned, .snmp_sess_close)
  | .done, .snmp_sess_close => some (.returned, .snmp_sess_close)
  | .returned, .sem_post => some (.waiting, .sem_post)
  | _, _ => none

/-! ## Table loading -/

/-- How a request of the inner loop of `load_oid_table` leaves `running`. -/
inductive BulkEnd where
  | more
  | end_of_subtree
  | exception_value
  | error_response
  | timeout
  | misc_error
deriving DecidableEq

inductive TablePlace where
  /-- at the head of the loop, with so many OIDs to go -/
  | oid (left : Nat)
  /-- at `snmp_sess_open` -/
  | opening (left : Nat)
  /-- in the loop over the requests -/
  | bulk (left : Nat)
  | loaded (left : Nat)
  | returned (rvalue : Int32)
  | finished
deriving DecidableEq

inductive TableAction where
  | read_objid (parsed : Bool)
  | snmp_sess_open (opened : Bool)
  | bulk (e : BulkEnd)
  | snmp_sess_close
  | return_
  | sem_post
deriving DecidableEq

def tableStep : TablePlace → TableAction → Option (TablePlace × Effect)
  | .oid 0, .return_ => some (.returned 0, .none)
  | .oid (left + 1), .read_objid true => some (.opening left, .none)
  | .oid (_ + 1), .read_objid false => some (.returned (-1), .none)
  | .opening left, .snmp_sess_open true => some (.bulk left, .snmp_sess_open)
  | .opening _, .snmp_sess_open false => some (.returned (-1), .none)
  | .bulk left, .bulk e => some (if e = .more then .bulk left else .loaded left, .none)
  | .loaded left, .snmp_sess_close => some (.oid left, .snmp_sess_close)
  | .returned _, .sem_post => some (.finished, .sem_post)
  | _, _ => none

inductive LoaderPlace where
  | idle
  /-- at `sem_wait`, with the numbers of OIDs of the hosts to go -/
  | sem_wait (hosts : List Nat)
  | create (oids : Nat) (hosts : List Nat)
  | join (i : Nat)
deriving DecidableEq

/-! ## All threads -/

structure State where
  session_semaphore : Nat
  worker : List WorkerPlace
  loader : LoaderPlace
  /-- the threads of `tvector` -/
  table : List TablePlace
  /-- how often a session was opened, less how often one was closed -/
  opened : Int
deriving DecidableEq

def session_limit : Nat := 800

def State.init : State := ⟨session_limit, [], .idle, [], 0⟩

inductive Action where
  | create_worker
  | worker (i : Nat) (a : WorkerAction)
  /-- `load_host_tables` is called for hosts with so many OIDs each -/
  | load_host_tables (hosts : List Nat)
  | loader
  | table (i : Nat) (a : TableAction)
deriving DecidableEq

def State.apply (s : State) : Effect → Option State
  | .none => some s
  | .sem_wait =>
      match s.session_semaphore with
      | 0 => none
      | session_semaphore + 1 => some { s with session_semaphore }
  | .sem_post => some { s with session_semaphore := s.session_semaphore + 1 }
  | .snmp_sess_open => some { s with opened := s.opened + 1 }
  | .snmp_sess_close => some { s with opened := s.opened - 1 }

def loaderStep (s : State) : LoaderPlace → Option State
  | .idle => none
  | .sem_wait [] => some { s with loader := .join 0 }
  | .sem_wait (oids :: hosts) => { s with loader := .create oids hosts }.apply .sem_wait
  | .create oids hosts =>
      some { s with loader := .sem_wait hosts, table := s.table ++ [.oid oids] }
  | .join i =>
      match s.table[i]? with
      | none => some { s with loader := .idle, table := [] }
      | some place => if place = .finished then some { s with loader := .join (i + 1) } else none

def step (s : State) : Action → Option State
  | .create_worker => some { s with worker := s.worker ++ [.waiting] }
  | .worker i a =>
      s.worker[i]?.bind fun place =>
        (workerStep place a).bind fun (place', effect) =>
          { s with worker := s.worker.set i place' }.apply effect
  | .load_host_tables hosts =>
      if s.loader = .idle then some { s with loader := .sem_wait hosts } else none
  | .loader => loaderStep s s.loader
  | .table i a =>
      s.table[i]?.bind fun place =>
        (tableStep place a).bind fun (place', effect) =>
          { s with table := s.table.set i place' }.apply effect

end SnappCollector.Sessions
