import SnappCollector.Machine.Runs

/-!
# The daemon as a transition system

The main loop waits for a signal or a timeout, loads a new configuration and puts it in
the place of the current one.  The signal thread and the workers of the control socket
run beside it.  Each step is one access to shared data, one lock, wait or signal
operation, or one call whose end is up to the environment.

`pthread_cond_signal` wakes the main thread if it is blocked in the wait and has no
effect otherwise; a wait may also end by itself.  Runs start when the main thread enters
its loop, with the first configuration initialized.  `loads`, `handled`, `installed`,
`late` and `term_handled` are history: no step reads them.
-/

namespace SnappCollector.Daemon

/-! ## Threads -/

inductive Signo where
  | SIGHUP
  | SIGTERM
  | SIGINT
deriving DecidableEq

inductive Retcode where
  | zero
  | ETIMEDOUT
deriving DecidableEq

inductive MainPlace where
  /-- at the lock on `reload_lock` -/
  | lock
  /-- holding it, before the wait -/
  | locked
  /-- blocked in `pthread_cond_timedwait` -/
  | waiting
  /-- taking `reload_lock` again -/
  | woken (retcode : Retcode)
  /-- holding it, at the tests on `retcode` and `system_done` -/
  | returned (retcode : Retcode)
  | unlock
  /-- at `new Snapp_config` and the call of `load_config` -/
  | new_config
  | load_config
  | init_config
  | delete_new
  | config_lock
  | delete_current
  /-- in the destructor -/
  | deleting_current
  | install
  | config_unlock
  /-- at `delete current_config` behind `done:` -/
  | done
  | deleting
  | terminated
deriving DecidableEq

/-- Where the signal thread is in `signal_handling_func`; a SIGHUP carries the number of
loads that had been started when it arrived. -/
inductive SignalPlace where
  | sigwait
  | hup_lock (arrived : Nat)
  | hup_unlock (arrived : Nat)
  | hup_signal (arrived : Nat)
  | term_test
  | term_set
  | term_signal
deriving DecidableEq

/-- Where a control worker is in `send_status` or `do_reload`; `sent` is the number of
loads that had been started when it sent its SIGHUP. -/
inductive ClientPlace where
  | idle
  | status_lock
  /-- in the critical section of `send_status` -/
  | status
  | sample_lock
  | sample
  | kill (current_config : Nat)
  /-- at the head of the loop -/
  | poll (i current_config new_config sent : Nat)
  | poll_lock (i current_config sent : Nat)
  | poll_read (i current_config sent : Nat)
  /-- 200 or 550 -/
  | answered (successful : Bool) (sent : Nat)
deriving DecidableEq

/-! ## Shared data -/

inductive Phase where
  | created
  | loaded
  | initialized
  | deleting
  | deleted
deriving DecidableEq

/-- A pointer to a configuration, and the load that made it: 0 at the start. -/
structure Config where
  address : Nat
  load : Nat
  phase : Phase
deriving DecidableEq

inductive Holder where
  | main
  | signal_thread
  | client (i : Nat)
deriving DecidableEq

structure State where
  main : MainPlace
  signal_thread : SignalPlace
  client : List ClientPlace
  reload_lock : Option Holder
  config_mutex : Option Holder
  /-- the signals that are pending, each at most once -/
  pending : List Signo
  system_done : Bool
  current_config : Config
  new_config : Config
  exited : Bool
  loads : Nat
  /-- the SIGHUPs whose branch has been completed, each with the loads at its arrival -/
  handled : List Nat
  installed : List Nat
  /-- the loads that were started with `system_done` set -/
  late : Nat
  term_handled : Bool
deriving DecidableEq

/-- With the first configuration, and so many control workers.  They start a little earlier,
before `init_config` has come back for that configuration: what a client does meanwhile is left
out. -/
def State.init (clients : Nat) : State where
  main := .lock
  signal_thread := .sigwait
  client := List.replicate clients .idle
  reload_lock := none
  config_mutex := none
  pending := []
  system_done := false
  current_config := ⟨0, 0, .initialized⟩
  new_config := ⟨0, 0, .initialized⟩
  exited := false
  loads := 0
  handled := []
  installed := []
  late := 0
  term_handled := false

/-! ## Steps -/

inductive MainAction where
  | go
  | timeout
  | spurious_wakeup
  /-- another return value of the wait -/
  | wait_failure
  /-- the address of the new configuration -/
  | new (address : Nat)
  /-- a negative return value -/
  | failed
  /-- an exit, a failed assertion or a crash -/
  | died
deriving DecidableEq

inductive ClientAction where
  | go
  | send_status
  | do_reload
deriving DecidableEq

inductive Action where
  | raise (signo : Signo)
  | main (a : MainAction)
  | sigwait (signo : Signo)
  | signal_thread
  | client (i : Nat) (a : ClientAction)
deriving DecidableEq

def mainStep (s : State) : MainPlace → MainAction → Option State
  | .lock, .go =>
      match s.reload_lock with
      | some _ => none
      | none => some { s with reload_lock := some .main, main := .locked }
  | .locked, .go => some { s with reload_lock := none, main := .waiting }
  | .waiting, .timeout => some { s with main := .woken .ETIMEDOUT }
  | .waiting, .spurious_wakeup => some { s with main := .woken .zero }
  | .waiting, .wait_failure => some { s with exited := true }
  | .woken retcode, .go =>
      match s.reload_lock with
      | some _ => none
      | none => some { s with reload_lock := some .main, main := .returned retcode }
  | .returned .ETIMEDOUT, .go => some { s with main := .unlock }
  | .returned .zero, .go => some { s with main := if s.system_done then .done else .unlock }
  | .unlock, .go => some { s with reload_lock := none, main := .new_config }
  | .new_config, .new address =>
      -- the old configuration is still there
      if address = s.current_config.address then none
      else
        some { s with
          new_config := ⟨address, s.loads + 1, .created⟩
          loads := s.loads + 1
          late := if s.system_done then s.late + 1 else s.late
          main := .load_config }
  | .load_config, .go =>
      some { s with new_config := { s.new_config with phase := .loaded }, main := .init_config }
  | .init_config, .go =>
      some { s with new_config := { s.new_config with phase := .initialized }, main := .config_lock }
  | .load_config, .failed => some { s with main := .delete_new }
  | .init_config, .failed => some { s with main := .delete_new }
  | .load_config, .died => some { s with exited := true }
  | .init_config, .died => some { s with exited := true }
  | .delete_new, .go =>
      some { s with new_config := { s.new_config with phase := .deleted }, main := .lock }
  | .config_lock, .go =>
      match s.config_mutex with
      | some _ => none
      | none => some { s with config_mutex := some .main, main := .delete_current }
  | .delete_current, .go =>
      some { s with
        current_config := { s.current_config with phase := .deleting }, main := .deleting_current }
  | .deleting_current, .go =>
      some { s with
        current_config := { s.current_config with phase := .deleted }, main := .install }
  | .install, .go =>
      some { s with
        current_config := s.new_config
        installed := s.installed ++ [s.new_config.load]
        main := .config_unlock }
  | .config_unlock, .go => some { s with config_mutex := none, main := .lock }
  | .done, .go =>
      some { s with current_config := { s.current_config with phase := .deleting }, main := .deleting }
  | .deleting, .go =>
      some { s with
        current_config := { s.current_config with phase := .deleted }, main := .terminated }
  | .terminated, .go => some { s with exited := true }
  | _, _ => none

def State.cond_signal (s : State) : State :=
  if s.main = .waiting then { s with main := .woken .zero } else s

def sigwaitStep (s : State) (signo : Signo) : Option State :=
  if s.signal_thread = .sigwait ∧ signo ∈ s.pending then
    let s := { s with pending := s.pending.erase signo }
    match signo with
    | .SIGHUP => some { s with signal_thread := .hup_lock s.loads }
    | .SIGTERM => some { s with signal_thread := .term_test }
    | .SIGINT => some { s with exited := true }
  else none

def signalStep (s : State) : SignalPlace → Option State
  | .sigwait => none
  | .hup_lock arrived =>
      match s.reload_lock with
      | some _ => none
      | none => some { s with reload_lock := some .signal_thread, signal_thread := .hup_unlock arrived }
  | .hup_unlock arrived => some { s with reload_lock := none, signal_thread := .hup_signal arrived }
  | .hup_signal arrived =>
      some { s.cond_signal with handled := s.handled ++ [arrived], signal_thread := .sigwait }
  | .term_test =>
      if s.system_done then some { s with exited := true }
      else some { s with signal_thread := .term_set }
  | .term_set => some { s with system_done := true, signal_thread := .term_signal }
  | .term_signal => some { s.cond_signal with term_handled := true, signal_thread := .sigwait }

/-- `wait_secs` of `do_reload`. -/
def wait_secs : Nat := 55

def clientStep (s : State) (i : Nat) : ClientPlace → ClientAction → Option State
  | .idle, .send_status => some { s with client := s.client.set i .status_lock }
  | .idle, .do_reload => some { s with client := s.client.set i .sample_lock }
  | .status_lock, .go =>
      match s.config_mutex with
      | some _ => none
      | none => some { s with config_mutex := some (.client i), client := s.client.set i .status }
  | .status, .go => some { s with config_mutex := none, client := s.client.set i .idle }
  | .sample_lock, .go =>
      match s.config_mutex with
      | some _ => none
      | none => some { s with config_mutex := some (.client i), client := s.client.set i .sample }
  | .sample, .go =>
      some { s with
        config_mutex := none, client := s.client.set i (.kill s.current_config.address) }
  | .kill current_config, .go =>
      some { s with
        pending := s.pending.insert .SIGHUP
        client := s.client.set i (.poll 0 current_config current_config s.loads) }
  | .poll n current_config new_config sent, .go =>
      if n < wait_secs ∧ current_config = new_config then
        some { s with client := s.client.set i (.poll_lock n current_config sent) }
      else
        some { s with client := s.client.set i (.answered (new_config ≠ current_config) sent) }
  | .poll_lock n current_config sent, .go =>
      match s.config_mutex with
      | some _ => none
      | none =>
          some { s with
            config_mutex := some (.client i)
            client := s.client.set i (.poll_read n current_config sent) }
  | .poll_read n current_config sent, .go =>
      some { s with
        config_mutex := none
        client := s.client.set i (.poll (n + 1) current_config s.current_config.address sent) }
  | .answered _ _, .go => some { s with client := s.client.set i .idle }
  | _, _ => none

def step (s : State) (a : Action) : Option State :=
  if s.exited then none
  else
    match a with
    | .raise signo => some { s with pending := s.pending.insert signo }
    | .main a => mainStep s s.main a
    | .sigwait signo => sigwaitStep s signo
    | .signal_thread => signalStep s s.signal_thread
    | .client i a => s.client[i]?.bind fun place => clientStep s i place a

end SnappCollector.Daemon
