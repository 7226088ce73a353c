import SnappCollector.CollectionClass.Proofs.Locks

/-!
# Every round hands out every host once

Until `finalize` takes the lock, the queue holds the rest of the last round that
was not skipped, and the semaphore counts it.  While the main thread fills the
queue the round is only partly there; `MainPlace.remaining` is the part to come.
-/

namespace SnappCollector.CollectionClass

open Machine

def hosts (n : Nat) : List Int := (List.range n).map Int.ofNat

theorem hosts_succ (i : Nat) : hosts (i + 1) = hosts i ++ [(i : Int)] := by
  simp [hosts, List.range_succ]

theorem nodup_hosts (n : Nat) : (hosts n).Nodup := by
  apply List.nodup_range.map
  intro i j h
  exact Int.ofNat.inj h

/-- How many hosts of the round that is being pushed are in the queue. -/
def MainPlace.pushed : MainPlace → Option Nat
  | .push i => some i
  | .post i => some (i + 1)
  | _ => none

/-- A host has been pushed and its post is still to come. -/
def MainPlace.owesPost : MainPlace → Bool
  | .post _ => true
  | _ => false

def MainPlace.remaining (h : Nat) : MainPlace → Nat
  | .push i => if i ≤ h then 1 else 0
  | .post i => if i < h then 1 else 0
  | _ => 0

/-- Between `sem_wait` and `pop`. -/
def WorkerPlace.holdsToken : WorkerPlace → Bool
  | .taken | .front => true
  | _ => false

def FinalizePlace.before : FinalizePlace → Bool
  | .idle | .lock => true
  | _ => false

theorem MainPlace.inside_of_pushed {m : MainPlace} {j : Nat} (h : m.pushed = some j) :
    m.inside = true := by
  cases m <;> simp [MainPlace.pushed, MainPlace.inside] at *

variable {k n : Nat}

/-- How often host `h` has been popped. -/
def State.handed (s : State k) (h : Nat) : Nat := (s.popped.map (·.2)).count (h : Int)

structure Rounds (n : Nat) (s : State k) : Prop where
  pushing : ∀ j, s.main.pushed = some j → s.pending_host_index_queue = hosts j ∧ j ≤ n
  pushed : s.main.pushed = none → s.pending_host_index_queue <:+ hosts n
  handed : ∀ h < n,
    s.handed h + s.pending_host_index_queue.count (h : Int) + s.main.remaining h = s.rounds
  tokens : s.worker_semaphore + numAt WorkerPlace.holdsToken s.worker + s.main.owesPost.toNat =
    s.pending_host_index_queue.length

theorem rounds_init (sessions : Nat) : Rounds n (State.init k sessions) where
  pushing j hj := by cases hj
  pushed _ := List.nil_suffix
  handed h hh := rfl
  tokens := by simp [State.init, numAt, WorkerPlace.holdsToken, MainPlace.owesPost]

section Frame

variable {s s' : State k}

theorem Rounds.frame (h : Rounds n s)
    (hqueue : s'.pending_host_index_queue = s.pending_host_index_queue)
    (hsem : s'.worker_semaphore = s.worker_semaphore) (hrounds : s'.rounds = s.rounds)
    (hpopped : s'.popped = s.popped) (hmain : s'.main.pushed = s.main.pushed)
    (hremaining : ∀ h, s'.main.remaining h = s.main.remaining h)
    (howes : s'.main.owesPost = s.main.owesPost)
    (hworker : numAt WorkerPlace.holdsToken s'.worker = numAt WorkerPlace.holdsToken s.worker) :
    Rounds n s' where
  pushing j hj := by rw [hqueue]; exact h.pushing j (hmain ▸ hj)
  pushed hnone := by rw [hqueue]; exact h.pushed (hmain ▸ hnone)
  handed host hhost := by
    rw [hqueue, hremaining, hrounds, State.handed, hpopped]
    exact h.handed host hhost
  tokens := by rw [hqueue, hsem, howes, hworker]; exact h.tokens

theorem Rounds.move_main (h : Rounds n s) {m : MainPlace} (hs : s.main.pushed = none)
    (hm : m.pushed = none) (hs' : s' = { s with main := m, lock := s'.lock }) : Rounds n s' := by
  have hzero : ∀ {p : MainPlace}, p.pushed = none →
      (∀ h, p.remaining h = 0) ∧ p.owesPost = false := by
    intro p hp
    cases p <;> simp_all [MainPlace.pushed, MainPlace.remaining, MainPlace.owesPost]
  rw [hs']
  refine h.frame rfl rfl rfl rfl (hm.trans hs.symm) (fun host => ?_) ?_ rfl
  · exact ((hzero hm).1 host).trans ((hzero hs).1 host).symm
  · exact (hzero hm).2.trans (hzero hs).2.symm

theorem Rounds.move_worker (h : Rounds n s) {w : Fin k} {p : WorkerPlace}
    (hp : p.holdsToken = (s.worker w).holdsToken)
    (hs' : s' = { s with
      worker := Function.update s.worker w p
      lock := s'.lock, session_semaphore := s'.session_semaphore }) : Rounds n s' := by
  rw [hs']
  exact h.frame rfl rfl rfl rfl rfl (fun _ => rfl) rfl (numAt_update_of_eq hp)

end Frame

variable {s s' : State k} {a : Action k}

theorem pushed_eq_none (hlock : Guarded s) {t : Thread k} (ht : s.inside t = true)
    (hmain : t ≠ .main) : s.main.pushed = none := by
  by_contra hsome
  obtain ⟨j, hj⟩ := Option.ne_none_iff_exists'.mp hsome
  have hin : s.inside .main = true := MainPlace.inside_of_pushed hj
  exact hmain (hlock.eq_of_inside ht hin)

theorem Rounds.queue_ne_nil (h : Rounds n s) {w : Fin k}
    (hw : (s.worker w).holdsToken = true) : s.pending_host_index_queue ≠ [] := by
  intro hempty
  have htokens := h.tokens
  have hpos : 0 < numAt WorkerPlace.holdsToken s.worker := numAt_pos hw
  rw [hempty, List.length_nil] at htokens
  omega

theorem Rounds.start_round (h : Rounds n s) (hplace : s.main = .test)
    (hempty : s.pending_host_index_queue = []) :
    Rounds n { s with main := .push 0, rounds := s.rounds + 1 } where
  pushing j hj := by
    obtain rfl := Option.some.inj hj
    exact ⟨hempty, Nat.zero_le n⟩
  pushed hnone := by cases hnone
  handed host hhost := by
    have hcount := h.handed host hhost
    rw [hplace] at hcount
    simp only [MainPlace.remaining] at hcount ⊢
    exact congrArg (· + 1) hcount
  tokens := by
    have htokens := h.tokens
    rwa [hplace] at htokens

theorem Rounds.push (h : Rounds n s) {i : Nat} (hplace : s.main = .push i) (hi : i < n) :
    Rounds n { s with
      pending_host_index_queue := s.pending_host_index_queue ++ [(i : Int)]
      main := .post i } where
  pushing j hj := by
    obtain rfl := Option.some.inj hj
    obtain ⟨hqueue, -⟩ := h.pushing i (by rw [hplace]; rfl)
    refine ⟨?_, hi⟩
    rw [hosts_succ, ← hqueue]
  pushed hnone := by cases hnone
  handed host hhost := by
    have hcount := h.handed host hhost
    rw [hplace] at hcount
    simp only [MainPlace.remaining, State.handed, List.count_append, List.count_singleton,
      beq_iff_eq, Nat.cast_inj] at hcount ⊢
    split_ifs at hcount ⊢ <;> omega
  tokens := by
    have htokens := h.tokens
    rw [hplace] at htokens
    simp only [MainPlace.owesPost, Bool.toNat_false, Bool.toNat_true, List.length_append,
      List.length_singleton] at htokens ⊢
    omega

theorem Rounds.end_round (h : Rounds n s) {i : Nat} (hplace : s.main = .push i) (hi : ¬i < n) :
    Rounds n { s with main := .unlock } := by
  obtain ⟨hqueue, hle⟩ := h.pushing i (by rw [hplace]; rfl)
  have hall : i = n := by omega
  refine ⟨fun j hj => ?_, fun _ => ?_, fun host hhost => ?_, ?_⟩
  · cases hj
  · simp only [hqueue, hall, List.suffix_refl]
  · have hcount := h.handed host hhost
    rw [hplace] at hcount
    simp only [MainPlace.remaining, if_neg (show ¬i ≤ host by omega)] at hcount ⊢
    exact hcount
  · have htokens := h.tokens
    rwa [hplace] at htokens

theorem Rounds.post (h : Rounds n s) {i : Nat} (hplace : s.main = .post i) :
    Rounds n { s with worker_semaphore := s.worker_semaphore + 1, main := .push (i + 1) } where
  pushing j hj := by
    obtain rfl := Option.some.inj hj
    exact h.pushing (i + 1) (by rw [hplace]; rfl)
  pushed hnone := by cases hnone
  handed host hhost := by
    have hcount := h.handed host hhost
    rw [hplace] at hcount
    exact hcount
  tokens := by
    have htokens := h.tokens
    rw [hplace] at htokens
    simp only [MainPlace.owesPost, Bool.toNat_false, Bool.toNat_true] at htokens ⊢
    omega

theorem Rounds.wait (h : Rounds n s) {w : Fin k} {worker_semaphore : Nat}
    (hplace : s.worker w = .waiting) (hsem : s.worker_semaphore = worker_semaphore + 1) :
    Rounds n { s with worker_semaphore, worker := Function.update s.worker w .taken } := by
  refine ⟨h.pushing, h.pushed, h.handed, ?_⟩
  have htokens := h.tokens
  have hcount := numAt_update WorkerPlace.holdsToken s.worker w .taken
  rw [hplace] at hcount
  rw [hsem] at htokens
  simp only [WorkerPlace.holdsToken, Bool.toNat_false, Bool.toNat_true] at htokens hcount ⊢
  omega

/-- What a worker pops is the next host of a round that has been pushed. -/
theorem Rounds.pop (hlock : Guarded s) (h : Rounds n s) {w : Fin k} {collection_index : Int}
    {pending_host_index_queue : List Int} (hplace : s.worker w = .front)
    (hqueue : s.pending_host_index_queue = collection_index :: pending_host_index_queue) :
    Rounds n { s with
      pending_host_index_queue
      worker := Function.update s.worker w (.popped collection_index)
      popped := s.popped ++ [(w, collection_index)] } := by
  have hnone := pushed_eq_none hlock (t := .worker w)
    (by simp [State.inside, hplace, WorkerPlace.inside]) (by simp)
  have hrest := h.pushed hnone
  rw [hqueue] at hrest
  refine ⟨fun j hj => ?_, fun _ => (List.suffix_cons _ _).trans hrest, fun host hhost => ?_, ?_⟩
  · rw [hnone] at hj
    cases hj
  · have hcount := h.handed host hhost
    rw [hqueue, List.count_cons] at hcount
    simp only [State.handed, List.map_append, List.map_cons, List.map_nil, List.count_append,
      List.count_singleton] at hcount ⊢
    omega
  · have htokens := h.tokens
    have hcount := numAt_update WorkerPlace.holdsToken s.worker w (.popped collection_index)
    rw [hplace] at hcount
    rw [hqueue, List.length_cons] at htokens
    simp only [WorkerPlace.holdsToken, Bool.toNat_false, Bool.toNat_true] at htokens hcount ⊢
    omega

theorem rounds_step (hlock : Guarded s) (h : Rounds n s) (hs : Step n s a s')
    (hbefore : s'.finalize.before = true) : Rounds n s' := by
  cases hs with
  | main_iteration hplace | main_lock hplace | main_skip hplace | main_warned hplace
  | main_unlock hplace | main_sent hplace | main_sleep hplace | main_slept hplace =>
      exact h.move_main (by rw [hplace]; rfl) rfl rfl
  | main_cancelled hcancel hplace =>
      refine h.move_main ?_ rfl rfl
      cases hmain : s.main <;> simp_all [MainPlace.cancellation_point, MainPlace.pushed]
  | main_round hplace hempty => exact h.start_round hplace hempty
  | main_push i hplace hi => exact h.push hplace hi
  | main_pushed i hplace hi => exact h.end_round hplace hi
  | main_post i hplace => exact h.post hplace
  | worker_wait w worker_semaphore hplace hsem => exact h.wait hplace hsem
  | worker_pop w collection_index queue hplace hqueue => exact h.pop hlock hplace hqueue
  | worker_pop_empty w hplace hqueue =>
      exact absurd hqueue (h.queue_ne_nil (by rw [hplace]; rfl))
  | worker_lock w hplace | worker_finish w hplace | worker_unlock w collection_index hplace
  | worker_session w collection_index session_semaphore hplace
  | worker_collected w collection_index hplace | worker_session_post w hplace =>
      exact h.move_worker (by rw [hplace]; rfl) rfl
  | finalize_call | other_session_wait | other_session_post =>
      exact h.frame rfl rfl rfl rfl rfl (fun _ => rfl) rfl rfl
  | finalize_lock => cases hbefore
  | finalize_cancel => cases hbefore
  | finalize_clear index queue hplace | finalize_cleared hplace | finalize_push i hplace
  | finalize_pushed i hplace | finalize_post i hplace | finalize_unlock hplace
  | finalize_join i hi hplace | finalize_joined i hi hplace =>
      simp [*, FinalizePlace.before] at hbefore

theorem before_of_step (hs : Step n s a s') (h : s'.finalize.before = true) :
    s.finalize.before = true := by
  cases hs <;> first | exact h | simp_all [FinalizePlace.before]

theorem rounds_reachable {sessions : Nat} (h : Reachable (step n) (State.init k sessions) s) :
    s.finalize.before = true → Rounds n s := by
  induction h with
  | start => exact fun _ => rounds_init sessions
  | next hreach _ hs ih =>
      intro hbefore
      have hstep := step_sound hs
      exact rounds_step (guarded_reachable hreach) (ih (before_of_step hstep hbefore)) hstep hbefore

structure HandedOut (n : Nat) (s : State k) : Prop where
  rest : s.pending_host_index_queue <:+ hosts n
  handed : ∀ h < n, s.handed h + s.pending_host_index_queue.count (h : Int) = s.rounds
  tokens : s.worker_semaphore + numAt WorkerPlace.holdsToken s.worker =
    s.pending_host_index_queue.length

/-- Before `finalize` takes the lock, in every reachable state with a free lock the
queue is the rest of a round, every host has been handed out or waits in the queue
once per round, and the semaphore counts the queue. -/
theorem handedOut_of_reachable {sessions : Nat}
    (h : Reachable (step n) (State.init k sessions) s) (hbefore : s.finalize.before = true)
    (hfree : s.lock = none) : HandedOut n s := by
  have hrounds := rounds_reachable h hbefore
  have hlock := guarded_reachable h
  rw [Guarded, hfree] at hlock
  have hout : s.main.inside = false := hlock.outside_of_free .main
  have hidle : s.main.pushed = none ∧ (∀ h, s.main.remaining h = 0) ∧ s.main.owesPost = false := by
    cases hmain : s.main <;>
      simp_all [MainPlace.inside, MainPlace.pushed, MainPlace.remaining, MainPlace.owesPost]
  obtain ⟨hnone, hremaining, howes⟩ := hidle
  refine ⟨hrounds.pushed hnone, fun host hhost => ?_, ?_⟩
  · have hcount := hrounds.handed host hhost
    rwa [hremaining] at hcount
  · have htokens := hrounds.tokens
    rwa [howes] at htokens

theorem handedOut_first_round :
    ∃ s : State 2, s.rounds = 1 ∧ s.popped = [(0, 0)] ∧ HandedOut 2 s := by
  obtain ⟨s, hrun, hbefore, hfree, hrounds, hpopped⟩ : ∃ s : State 2,
      run (step 2) (State.init 2 800) (List.replicate 9 .main ++ List.replicate 4 (.worker 0)) =
          some s ∧
        s.finalize.before = true ∧ s.lock = none ∧ s.rounds = 1 ∧ s.popped = [(0, 0)] :=
    ⟨_, rfl, rfl, rfl, rfl, rfl⟩
  exact ⟨s, hrounds, hpopped, handedOut_of_reachable (.of_run hrun) hbefore hfree⟩

end SnappCollector.CollectionClass
