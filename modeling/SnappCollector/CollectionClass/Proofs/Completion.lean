import SnappCollector.CollectionClass.Proofs.Ledger
import SnappCollector.Machine.Progress

/-!
# Shutdowns and rounds end

Once `finalize` has cancelled the main thread, and the main thread is not killed with the lock
held, `finalize` returns after a bounded number of steps in whatever order: every worker takes a
`-1` and is joined.  The main thread is not waited for, and may outlive the object.  Before
`finalize`, the class comes to rest in the same way between two rounds, with every host handed
out.
-/

namespace SnappCollector.CollectionClass

open Machine

variable {k n : Nat}

/-! ## How much is left -/

/-- What the main thread may still do before it dies or sleeps; a token that it posts is work
for a worker, and so is an index that it pushes. -/
def MainPlace.left (n : Nat) : MainPlace → Nat
  | .cancelled => 0
  | .sleep => 1
  | .sent => 2
  | .unlock => 3
  | .queue_not_empty => 4
  | .push i => 10 * (n - i) + 4
  | .post i => 10 * (n - (i + 1)) + 12
  | .test => 10 * n + 5
  | .lock => 10 * n + 6
  | .iteration => 10 * n + 7
  | .slept => 10 * n + 8

def FinalizePlace.left (k : Nat) : FinalizePlace → Nat
  | .idle | .lock | .cancel | .done => 0
  | .join i => k - i + 1
  | .unlock => k + 2
  | .push i => 10 * (k - i) + k + 3
  | .post i => 10 * (k - (i + 1)) + k + 11
  | .clear => 10 * k + k + 4

def WorkerPlace.left : WorkerPlace → Nat
  | .waiting | .finished | .fault => 0
  | .collected => 1
  | .collecting _ => 2
  | .session_wait _ => 3
  | .popped _ => 4
  | .front => 5
  | .taken => 6

/-- The steps of all threads, and of the other classes that hold sessions. -/
def State.workLeft (n : Nat) (s : State k) : Nat :=
  s.pending_host_index_queue.length + 7 * s.worker_semaphore + s.other_sessions + s.main.left n +
    s.finalize.left k + ∑ w, (s.worker w).left

section Left

variable {s s' : State k} {a : Action k}

theorem sum_left_update (s : State k) (w : Fin k) (p : WorkerPlace) :
    ∑ v, (Function.update s.worker w p v).left + (s.worker w).left =
      ∑ v, (s.worker v).left + p.left := by
  have hsum := sum_add_of_eq (f := fun v => (s.worker v).left)
    (g := fun v => (Function.update s.worker w p v).left) (i := w)
    fun v hv => by rw [Function.update_of_ne hv]
  rwa [Function.update_self] at hsum

theorem workLeft_worker {w : Fin k} {p : WorkerPlace}
    (hworker : s'.worker = Function.update s.worker w p) (hleft : p.left < (s.worker w).left)
    (hqueue : s'.pending_host_index_queue.length ≤ s.pending_host_index_queue.length)
    (hsem : s'.worker_semaphore = s.worker_semaphore)
    (hother : s'.other_sessions = s.other_sessions) (hmain : s'.main = s.main)
    (hfinalize : s'.finalize = s.finalize) : s'.workLeft n < s.workLeft n := by
  have hsum := sum_left_update s w p
  simp only [State.workLeft]
  rw [hworker, hsem, hother, hmain, hfinalize]
  omega

/-- The steps that end a shutdown or a round: no other class takes a session, `finalize` is not
called anew, and the main thread does not wake up. -/
def Works (s : State k) (a : Action k) : Prop :=
  a ≠ .other_session_wait ∧
    (s.cancel = false → a ≠ .finalize ∧ (a = .main → s.main ≠ .sleep))

theorem workLeft_step (hcancel : s.cancel = s.finalize.cancelled) (hwork : Works s a)
    (hs : Step n s a s') : s'.workLeft n < s.workLeft n := by
  obtain ⟨hother, hawake⟩ := hwork
  cases hs with
  | main_iteration hplace | main_lock hplace | main_skip hplace | main_warned hplace
  | main_pushed i hplace | main_unlock hplace | main_sent hplace | main_slept hplace
  | main_round hplace =>
      simp only [State.workLeft, hplace, MainPlace.left]
      omega
  | main_sleep hplace hc => exact absurd hplace ((hawake hc).2 rfl)
  | main_push i hplace hi =>
      simp only [State.workLeft, hplace, MainPlace.left, List.length_append, List.length_singleton]
      omega
  | main_post i hplace =>
      simp only [State.workLeft, hplace, MainPlace.left]
      omega
  | main_cancelled hc hplace =>
      have hpos : 0 < s.main.left n := by
        cases hmain : s.main <;> simp_all [MainPlace.cancellation_point, MainPlace.left]
      have hzero : MainPlace.left n .cancelled = 0 := rfl
      simp only [State.workLeft, hzero]
      omega
  | worker_wait w worker_semaphore hplace hsem =>
      have hsum : ∑ v, (Function.update s.worker w .taken v).left + (s.worker w).left =
          ∑ v, (s.worker v).left + 6 := sum_left_update s w .taken
      simp only [State.workLeft, hsem]
      omega
  | worker_pop w index queue hplace hqueue =>
      refine workLeft_worker rfl ?_ ?_ rfl rfl rfl rfl
      · simp [hplace, WorkerPlace.left]
      · simp [hqueue]
  | worker_lock w hplace | worker_pop_empty w hplace | worker_finish w hplace
  | worker_unlock w index hplace | worker_session w index session_semaphore hplace
  | worker_collected w index hplace | worker_session_post w hplace =>
      exact workLeft_worker rfl (by simp [hplace, WorkerPlace.left]) le_rfl rfl rfl rfl rfl
  | finalize_call hplace | finalize_lock hplace | finalize_cancel hplace =>
      rw [hplace] at hcancel
      exact absurd rfl (hawake hcancel).1
  | finalize_clear index queue hplace hqueue =>
      simp only [State.workLeft, hqueue, List.length_cons]
      omega
  | finalize_push i hplace hi =>
      simp only [State.workLeft, hplace, FinalizePlace.left, List.length_append,
        List.length_singleton]
      omega
  | finalize_post i hplace =>
      simp only [State.workLeft, hplace, FinalizePlace.left]
      omega
  | finalize_cleared hplace | finalize_pushed i hplace | finalize_unlock hplace
  | finalize_join i hi hplace | finalize_joined i hi hplace =>
      simp only [State.workLeft, hplace, FinalizePlace.left]
      omega
  | other_session_wait => exact absurd rfl hother
  | other_session_post other_sessions hother' =>
      simp only [State.workLeft, hother']
      omega

end Left

/-! ## Somebody can go on -/

section Progress

variable {sessions : Nat} {s s' : State k} {a : Action k}

/-- A step that helps whatever the main thread and `finalize` do. -/
def Action.helps : Action k → Bool
  | .worker _ | .other_session_post => true
  | _ => false

/-- A worker that is on its way gets on, or another one or another class gives a session back. -/
theorem exists_helping_step (hledger : Ledger sessions s) (hsessions : 0 < sessions)
    (hlock : Guarded s) (hfree : s.lock = none) (hfault : ∀ w, s.worker w ≠ .fault) {w : Fin k}
    (hwaiting : s.worker w ≠ .waiting) (hfinished : s.worker w ≠ .finished) :
    ∃ a s', a.helps = true ∧ step n s a = some s' := by
  have hworker : ∀ {v}, (workerStep s v (s.worker v)).isSome = true →
      ∃ a s', a.helps = true ∧ step n s a = some s' := by
    intro v hv
    obtain ⟨s', hs⟩ := Option.isSome_iff_exists.mp hv
    exact ⟨.worker v, s', rfl, hs⟩
  have hout : (s.worker w).inside = false := by
    rw [Guarded, hfree] at hlock
    exact hlock.outside_of_free (.worker w)
  cases hplace : s.worker w with
  | waiting => exact absurd hplace hwaiting
  | finished => exact absurd hplace hfinished
  | fault => exact absurd hplace (hfault w)
  | front | popped index =>
      rw [hplace] at hout
      cases hout
  | taken => exact hworker (v := w) (by simp [hplace, workerStep, hfree])
  | collecting index | collected => exact hworker (v := w) (by simp [hplace, workerStep])
  | session_wait index =>
      cases hsem : s.session_semaphore with
      | succ session_semaphore => exact hworker (v := w) (by simp [hplace, workerStep, hsem])
      | zero =>
          cases hother : s.other_sessions with
          | succ other_sessions =>
              have hsome : (step n s .other_session_post).isSome = true := by simp [step, hother]
              obtain ⟨s', hs⟩ := Option.isSome_iff_exists.mp hsome
              exact ⟨.other_session_post, s', rfl, hs⟩
          | zero =>
              -- all sessions are with the workers of this class
              have hcount := hledger.sessions
              obtain ⟨v, hv⟩ : ∃ v, (s.worker v).holdsSession = true := by
                by_contra hnone
                have hzero : numAt WorkerPlace.holdsSession s.worker = 0 := by
                  rw [numAt_eq_zero_iff]
                  intro v
                  by_contra hv
                  exact hnone ⟨v, by simpa using hv⟩
                omega
              apply hworker (v := v)
              cases hplace' : s.worker v <;> simp_all [WorkerPlace.holdsSession, workerStep]

theorem queue_eq_nil (hledger : Ledger sessions s) (hlock : Guarded s) (hfree : s.lock = none)
    (hwaits : ∀ w, s.worker w = .waiting ∨ s.worker w = .finished)
    (hsem : s.worker_semaphore = 0) : s.pending_host_index_queue = [] := by
  have htokens := hledger.tokens
  rw [Guarded, hfree] at hlock
  have hmain : s.main.owesPost = false := by
    have hout : s.main.inside = false := hlock.outside_of_free .main
    cases hplace : s.main <;> simp_all [MainPlace.inside, MainPlace.owesPost]
  have hfinalize : s.finalize.owesPost = false := by
    have hout : s.finalize.inside = false := hlock.outside_of_free .finalize
    cases hplace : s.finalize <;> simp_all [FinalizePlace.inside, FinalizePlace.owesPost]
  have hnone : numAt WorkerPlace.holdsToken s.worker = 0 := by
    rw [numAt_eq_zero_iff]
    intro w
    rcases hwaits w with hw | hw <;> rw [hw] <;> rfl
  rw [hsem, hnone, hmain, hfinalize] at htokens
  exact List.eq_nil_of_length_eq_zero (Nat.le_zero.mp htokens)

theorem FinalizePlace.after_of_cancelled {p : FinalizePlace} (h : p.cancelled = true)
    (hout : p.inside = false) : p.after = true := by
  cases p <;> simp_all [FinalizePlace.cancelled, FinalizePlace.inside, FinalizePlace.after]

theorem exists_step_of_token {w : Fin k} (hplace : s.worker w = .waiting)
    (hsem : s.worker_semaphore ≠ 0) : ∃ s', step n s (.worker w) = some s' := by
  obtain ⟨worker_semaphore, hsucc⟩ := Nat.exists_eq_succ_of_ne_zero hsem
  apply Option.isSome_iff_exists.mp
  simp [step, hplace, workerStep, hsucc]

theorem token_of_waiting (hledger : Ledger sessions s) (hlock : Guarded s) (hshutdown : Shutdown s)
    (hafter : s.finalize.after = true) (hfree : s.lock = none)
    (hwaits : ∀ w, s.worker w = .waiting ∨ s.worker w = .finished) {w : Fin k}
    (hplace : s.worker w = .waiting) : s.worker_semaphore ≠ 0 := by
  intro hsem
  have hempty := queue_eq_nil hledger hlock hfree hwaits hsem
  have hnot : numAt WorkerPlace.poisoned s.worker ≠ Fintype.card (Fin k) := by
    rw [Ne, numAt_eq_card_iff]
    intro hall
    have hw := hall w
    rw [hplace] at hw
    cases hw
  rw [Fintype.card_fin] at hnot
  rcases hshutdown.after hafter with ⟨hall, -⟩ | ⟨-, m, hqueue, hcount⟩
  · exact hnot hall
  · rw [hempty] at hqueue
    cases m with
    | zero => exact hnot (by omega)
    | succ m => cases hqueue

theorem exists_step_of_finished (hafter : s.finalize.after = true) (hlive : s.live = true)
    (hall : ∀ w, s.worker w = .finished) : ∃ s', step n s .finalize = some s' := by
  apply Option.isSome_iff_exists.mp
  cases hfinalize : s.finalize with
  | idle | lock | cancel | clear | push i | post i | unlock =>
      rw [hfinalize] at hafter
      cases hafter
  | done => simp [State.live, hfinalize] at hlive
  | join i =>
      simp only [step, hfinalize, finalizeStep]
      split
      · rw [if_pos (hall _)]
        rfl
      · rfl

/-- `finalize` has returned, and every worker has finished. -/
structure Returned (s : State k) : Prop where
  finalize : s.finalize = .done
  worker : ∀ w, s.worker w = .finished

/-- The steps that end a shutdown: the object is still there, no other class takes a session, and
the main thread takes the lock only when it finds the queue empty. -/
def Closes (s : State k) (a : Action k) : Prop :=
  s.live = true ∧ a ≠ .other_session_wait ∧ LocksSafely s a

theorem exists_step_of_not_returned (hledger : Ledger sessions s) (hsessions : 0 < sessions)
    (hlock : Guarded s) (hshutdown : Shutdown s) (halive : Alive s) (hcancel : s.cancel = true)
    (hend : ¬Returned s) : ∃ a s', Closes s a ∧ step n s a = some s' := by
  have hlive : s.live = true := by
    by_contra hdead
    have hdone : s.finalize = .done := by simpa [State.live] using hdead
    exact hend ⟨hdone, hledger.done hdone⟩
  have hother : ∀ {a : Action k}, a ≠ .main → LocksSafely s a := fun hne heq => absurd heq hne
  cases hfree : s.lock with
  | some t =>
      have hin := halive.owner t hfree
      obtain ⟨s', hs⟩ := Option.isSome_iff_exists.mp (isSome_step_of_inside (n := n) hin)
      refine ⟨t.action, s', ⟨hlive, by cases t <;> simp [Thread.action], fun hmain hplace => ?_⟩,
        hs⟩
      cases t with
      | main =>
          rw [State.inside, hplace] at hin
          cases hin
      | worker w | finalize => cases hmain
  | none =>
      have hafter : s.finalize.after = true := by
        have hcancelled := hledger.cancel
        rw [hcancel] at hcancelled
        rw [Guarded, hfree] at hlock
        exact FinalizePlace.after_of_cancelled hcancelled.symm (hlock.outside_of_free .finalize)
      by_cases hway : ∃ w, s.worker w ≠ .waiting ∧ s.worker w ≠ .finished
      · obtain ⟨w, hwaiting, hfinished⟩ := hway
        obtain ⟨a, s', ha, hs⟩ := exists_helping_step (n := n) hledger hsessions hlock hfree
          hshutdown.no_fault hwaiting hfinished
        refine ⟨a, s', ⟨hlive, ?_, hother ?_⟩, hs⟩ <;> rintro rfl <;> cases ha
      · have hwaits : ∀ w, s.worker w = .waiting ∨ s.worker w = .finished := by
          intro w
          by_contra hw
          exact hway ⟨w, fun h => hw (.inl h), fun h => hw (.inr h)⟩
        by_cases hall : ∀ w, s.worker w = .finished
        · obtain ⟨s', hs⟩ := exists_step_of_finished (n := n) hafter hlive hall
          exact ⟨.finalize, s', ⟨hlive, by simp, hother (by simp)⟩, hs⟩
        · obtain ⟨w, hw⟩ := not_forall.mp hall
          have hplace := (hwaits w).resolve_right hw
          obtain ⟨s', hs⟩ := exists_step_of_token (n := n) hplace
            (token_of_waiting hledger hlock hshutdown hafter hfree hwaits hplace)
          exact ⟨.worker w, s', ⟨hlive, by simp, hother (by simp)⟩, hs⟩

theorem cancel_of_step (hs : Step n s a s') (hcancel : s.cancel = true) : s'.cancel = true := by
  cases hs <;> first | exact hcancel | rfl

/-- From when `finalize` has cancelled the main thread: if no other class takes a session any
more, and the main thread takes the lock only when it finds the queue empty, then until
`finalize` returns the threads make at most `workLeft` steps in whatever order, some thread or
class always can make one, and when it returns every worker has finished and been joined. -/
theorem shutdown_ends_of_reaches (h : Reaches (step n) LocksSafely (State.init k sessions) s)
    (hsessions : 0 < sessions) (hcancel : s.cancel = true) :
    ComesToRest (step n) Closes Returned (s.workLeft n) s := by
  apply comesToRest_of_lowers (fun s =>
    Reaches (step n) LocksSafely (State.init k sessions) s ∧ s.cancel = true) ⟨h, hcancel⟩
  · rintro s a s' ⟨hreach, hcancel⟩ ⟨-, -, hsafe⟩ hs
    exact ⟨hreach.next hsafe hs, cancel_of_step (step_sound hs) hcancel⟩
  · rintro s a s' ⟨hreach, hcancel⟩ ⟨-, hother, -⟩ hs
    have hledger := ledger_reachable hreach.reachable
    exact workLeft_step hledger.cancel ⟨hother, by simp [hcancel]⟩ (step_sound hs)
  · rintro s ⟨hreach, hcancel⟩ hend
    have hbefore := hreach.reachable
    exact exists_step_of_not_returned (ledger_reachable hbefore) hsessions
      (guarded_reachable hbefore) (shutdown_reachable hbefore) (alive_reaches hreach) hcancel hend

/-! ## Between two rounds -/

/-- The class has worked off its rounds, and the main thread sleeps. -/
structure BetweenRounds (n : Nat) (s : State k) : Prop where
  main : s.main = .sleep
  queue : s.pending_host_index_queue = []
  semaphore : s.worker_semaphore = 0
  worker : ∀ w, s.worker w = .waiting
  lock : s.lock = none
  handed : ∀ h < n, s.handed h = s.rounds

theorem reaches_of_cancel_eq_false (h : Reachable (step n) (State.init k sessions) s)
    (hcancel : s.cancel = false) : Reaches (step n) LocksSafely (State.init k sessions) s := by
  induction h with
  | start => exact .start
  | @next s₁ s₂ a hreach _ hs ih =>
      have hbefore : s₁.cancel = false := by
        by_contra hne
        have hafter := cancel_of_step (step_sound hs) (by simpa using hne)
        rw [hcancel] at hafter
        cases hafter
      refine (ih hbefore).next (fun _ _ hc => ?_) hs
      rw [hbefore] at hc
      cases hc

theorem finalize_of_step (hs : Step n s a s') (ha : a ≠ .finalize) :
    s'.finalize = s.finalize := by
  cases hs <;> first | rfl | exact absurd rfl ha

theorem exists_step_or_betweenRounds (hledger : Ledger sessions s) (hsessions : 0 < sessions)
    (hlock : Guarded s) (hshutdown : Shutdown s) (hrounds : Rounds n s)
    (hidle : s.finalize = .idle) (hfree : s.lock = none) (hworkers : n = 0 ∨ 0 < k) :
    BetweenRounds n s ∨ ∃ a s', Works s a ∧ step n s a = some s' := by
  have hcancel : s.cancel = false := by rw [hledger.cancel, hidle]; rfl
  have hout : s.main.inside = false := by
    rw [Guarded, hfree] at hlock
    exact hlock.outside_of_free .main
  have hunfinished : ∀ w, s.worker w ≠ .finished := by
    intro w hw
    have hclean := (hshutdown.unmarked (by rw [hidle]; rfl)).1 w
    rw [hw] at hclean
    cases hclean
  by_cases hway : ∃ w, s.worker w ≠ .waiting
  · obtain ⟨w, hwaiting⟩ := hway
    obtain ⟨a, s', ha, hs⟩ := exists_helping_step (n := n) hledger hsessions hlock hfree
      hshutdown.no_fault hwaiting (hunfinished w)
    refine .inr ⟨a, s', ⟨?_, fun _ => ⟨?_, ?_⟩⟩, hs⟩ <;> rintro rfl <;> cases ha
  · have hwaits : ∀ w, s.worker w = .waiting := by simpa using hway
    have hnone : numAt WorkerPlace.holdsToken s.worker = 0 := by
      rw [numAt_eq_zero_iff]
      intro w
      rw [hwaits w]
      rfl
    by_cases hsem : s.worker_semaphore = 0
    · have hempty := queue_eq_nil hledger hlock hfree (fun w => .inl (hwaits w)) hsem
      have hmain : ∀ {place}, s.main = place → (mainStep n s place).isSome = true →
          place ≠ .sleep → ∃ a s', Works s a ∧ step n s a = some s' := by
        intro place hplace hsome hsleep
        obtain ⟨s', hs⟩ := Option.isSome_iff_exists.mp hsome
        refine ⟨.main, s', ⟨by simp, fun _ => ⟨by simp, fun _ => ?_⟩⟩, ?_⟩
        · rwa [hplace]
        · rwa [step, hplace]
      cases hplace : s.main with
      | test | queue_not_empty | push i | post i | unlock =>
          rw [hplace] at hout
          cases hout
      | cancelled =>
          have hdead := hledger.ended hplace
          rw [hcancel] at hdead
          cases hdead
      | lock => exact .inr (hmain hplace (by simp [mainStep, hfree]) (by simp))
      | iteration | sent | slept => exact .inr (hmain hplace rfl (by simp))
      | sleep =>
          refine .inl ⟨hplace, hempty, hsem, hwaits, hfree, fun host hhost => ?_⟩
          have hhanded := hrounds.handed host hhost
          simpa [hempty, hplace, MainPlace.remaining] using hhanded
    · -- a token stands for a host in the queue, so there are workers
      have htokens := hrounds.tokens
      have hpush : s.main.pushed = none ∧ s.main.owesPost = false := by
        cases hplace : s.main <;>
          simp_all [MainPlace.inside, MainPlace.pushed, MainPlace.owesPost]
      have hlength := (hrounds.pushed hpush.1).length_le
      rw [hnone, hpush.2] at htokens
      simp only [hosts, List.length_map, List.length_range, Bool.toNat_false] at hlength htokens
      have hk : 0 < k := hworkers.resolve_left (by omega)
      obtain ⟨s', hs⟩ := exists_step_of_token (n := n) (hwaits ⟨0, hk⟩) hsem
      exact .inr ⟨_, s', ⟨by simp, fun _ => ⟨by simp, by simp⟩⟩, hs⟩

/-- A class that is not being finalized works off its hosts: as long as the main thread does not
wake up again and no other class takes a session, the threads make at most `workLeft` steps in
whatever order, and in the end all workers wait, the queue is empty and every host was handed
out in every round. -/
theorem round_ends_of_reachable {s : State (num_workers n)}
    (h : Reachable (step n) (State.init (num_workers n) sessions) s) (hsessions : 0 < sessions)
    (hidle : s.finalize = .idle) :
    ComesToRest (step n) Works (BetweenRounds n) (s.workLeft n) s := by
  apply comesToRest_of_lowers (fun s =>
    Reachable (step n) (State.init (num_workers n) sessions) s ∧ s.finalize = .idle) ⟨h, hidle⟩
  · rintro s a s' ⟨hreach, hidle⟩ ⟨-, hwork⟩ hs
    have hcancel : s.cancel = false := by rw [(ledger_reachable hreach).cancel, hidle]; rfl
    refine ⟨hreach.next trivial hs, ?_⟩
    rw [finalize_of_step (step_sound hs) (hwork hcancel).1, hidle]
  · rintro s a s' ⟨hreach, hidle⟩ hwork hs
    exact workLeft_step (ledger_reachable hreach).cancel hwork (step_sound hs)
  · rintro s ⟨hreach, hidle⟩ hrest
    have hledger := ledger_reachable hreach
    have hcancel : s.cancel = false := by rw [hledger.cancel, hidle]; rfl
    have hlock := guarded_reachable hreach
    have hrounds := rounds_reachable hreach (by rw [hidle]; rfl)
    cases howner : s.lock with
    | none =>
        have hworkers : n = 0 ∨ 0 < num_workers n := by
          simp only [num_workers]
          split <;> omega
        exact (exists_step_or_betweenRounds hledger hsessions hlock (shutdown_reachable hreach)
          hrounds hidle howner hworkers).resolve_left hrest
    | some t =>
        have hin := (alive_reaches (reaches_of_cancel_eq_false hreach hcancel)).owner t howner
        obtain ⟨s', hs⟩ := Option.isSome_iff_exists.mp (isSome_step_of_inside (n := n) hin)
        refine ⟨t.action, s', ⟨by cases t <;> simp [Thread.action], fun _ => ⟨?_, ?_⟩⟩, hs⟩
        · rintro heq
          cases t with
          | finalize =>
              rw [State.inside, hidle] at hin
              cases hin
          | main | worker w => cases heq
        · rintro heq hplace
          cases t with
          | main =>
              rw [State.inside, hplace] at hin
              cases hin
          | finalize | worker w => cases heq

end Progress

/-- A cancelled class with one worker that has a host to poll still. -/
theorem shutdown_ends_one_worker :
    ∃ s : State 1, s.worker 0 = .session_wait 0 ∧ s.finalize = .clear ∧
      ComesToRest (step 1) Closes Returned 19 s := by
  obtain ⟨s, hrun, hplace, hfinalize, hcancel, hwork⟩ : ∃ s : State 1,
      run (fun s a => if LocksSafely s a then step 1 s a else none) (State.init 1 800)
          (List.replicate 8 .main ++ List.replicate 4 (.worker 0) ++ List.replicate 3 .finalize) =
          some s ∧
        s.worker 0 = .session_wait 0 ∧ s.finalize = .clear ∧ s.cancel = true ∧
        s.workLeft 1 = 19 :=
    ⟨_, rfl, rfl, rfl, rfl, rfl⟩
  have hend := shutdown_ends_of_reaches (.of_run hrun) (by decide) hcancel
  rw [hwork] at hend
  exact ⟨s, hplace, hfinalize, hend⟩

theorem round_ends_three_hosts :
    ∃ s : State (num_workers 3), s.rounds = 1 ∧ s.pending_host_index_queue = [0, 1] ∧
      ComesToRest (step 3) Works (BetweenRounds 3) 30 s := by
  obtain ⟨s, hrun, hrounds, hqueue, hidle, hwork⟩ : ∃ s : State (num_workers 3),
      run (step 3) (State.init (num_workers 3) 800) (List.replicate 7 .main) = some s ∧
        s.rounds = 1 ∧ s.pending_host_index_queue = [0, 1] ∧ s.finalize = .idle ∧
        s.workLeft 3 = 30 :=
    ⟨_, rfl, rfl, rfl, rfl, rfl⟩
  have hend := round_ends_of_reachable (Reachable.of_run hrun) (by decide) hidle
  rw [hwork] at hend
  exact ⟨s, hrounds, hqueue, hend⟩

end SnappCollector.CollectionClass
