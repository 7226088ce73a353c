import SnappCollector.Control.Steps
import SnappCollector.Machine.Mutex
import SnappCollector.Machine.Runs

/-!
# Every connection once

The queue hands every connection to one worker, in order, and the worker closes it, whatever
happens.  That a worker finds the queue filled rests on the semaphore, which counts its
connections as long as `sem_wait` does not return early.
-/

namespace SnappCollector.Control

open Machine

variable {n : Nat}

/-! ## The lock of the queue -/

def ListenPlace.inside : ListenPlace → Bool
  | .locked _ | .pushed => true
  | .accepting | .accepted _ | .unlocked => false

def WorkerPlace.inside : WorkerPlace → Bool
  | .locked | .front _ | .popped _ => true
  | .waiting | .woken | .handling _ | .handled _ | .fault => false

def State.inside (s : State n) : Owner n → Bool
  | .listen => s.listen.inside
  | .worker w => (s.worker w).inside

def Guarded (s : State n) : Prop := Guards s.queue_lock s.inside

theorem guarded_init : Guarded (State.init n) := by
  intro o ho
  cases o <;> cases ho

section Moves

variable {s s' : State n}

theorem State.inside_of_listen (hlisten : s'.listen.inside = true → s.listen.inside = true)
    (hworker : s'.worker = s.worker) (o : Owner n) :
    s'.inside o = true → s.inside o = true := by
  cases o with
  | listen => exact hlisten
  | worker w => simp [State.inside, hworker]

theorem State.inside_of_worker {w : Fin n} {place : WorkerPlace}
    (hplace : place.inside = true → (s.worker w).inside = true) (hlisten : s'.listen = s.listen)
    (hworker : s'.worker = Function.update s.worker w place) (o : Owner n) :
    s'.inside o = true → s.inside o = true := by
  cases o with
  | listen => simp [State.inside, hlisten]
  | worker v =>
      intro hv
      rw [State.inside, hworker] at hv
      exact update_imp (fun p : WorkerPlace => p.inside = true) hplace hv

end Moves

section Step

variable {s s' : State n} {a : Action n}

theorem guarded_step (h : Guarded s) (hs : Step s a s') : Guarded s' := by
  have hlocked : ∀ o, s.inside o = true → Guards (some o) s.inside := by
    intro o ho
    rw [← h o ho]
    exact h
  cases hs with
  | listen_lock c hlisten hfree =>
      rw [Guarded, hfree] at h
      exact h.acquire fun o ho => by
        cases o with
        | listen => exact absurd rfl ho
        | worker w => exact id
  | lock w hplace hfree =>
      rw [Guarded, hfree] at h
      exact h.acquire fun o ho => by
        cases o with
        | listen => exact id
        | worker v =>
            have hv : v ≠ w := fun heq => ho (heq ▸ rfl)
            simp [State.inside, hv]
  | listen_unlock hlisten =>
      have hin := hlocked .listen (by simp [State.inside, hlisten, ListenPlace.inside])
      exact hin.release rfl (State.inside_of_listen (by simp [ListenPlace.inside]) rfl)
  | unlock w c hplace =>
      have hin := hlocked (.worker w) (by simp [State.inside, hplace, WorkerPlace.inside])
      refine hin.release (by simp [State.inside, WorkerPlace.inside]) ?_
      exact State.inside_of_worker (by simp [WorkerPlace.inside]) rfl rfl
  | accept_failed hlisten | accept new_fd hlisten | push c hlisten | post hlisten =>
      exact h.frame (State.inside_of_listen (by simp [hlisten, ListenPlace.inside]) rfl)
  | wait_interrupted w hplace | wait w pending_semaphore hplace | front w c pending_fd hplace
  | front_empty w hplace | pop w c first pending_fd hplace | pop_empty w c hplace
  | handle w c hplace | close w c hplace =>
      exact h.frame (State.inside_of_worker (by simp [hplace, WorkerPlace.inside]) rfl rfl)

end Step

/-! ## Order and history -/

def ListenPlace.holds : ListenPlace → Option Accepted
  | .accepted c | .locked c => some c
  | .accepting | .pushed | .unlocked => none

def WorkerPlace.serves : WorkerPlace → Option Accepted
  | .popped c | .handling c | .handled c => some c
  | .waiting | .woken | .locked | .front _ | .fault => none

structure Kept (s : State n) : Prop where
  numbered : s.accepted.map Accepted.number = List.range s.accepted.length
  queued : s.accepted = s.taken.map (·.2) ++ s.pending_fd ++ s.listen.holds.toList
  first : ∀ w c, s.worker w = .front c → s.pending_fd.head? = some c
  serves : ∀ w c, (s.worker w).serves = some c → (w, c) ∈ s.taken
  /-- what was taken has been closed or is being served, and not both -/
  closed : ∀ w c, (w, c) ∈ s.closed ↔ (w, c) ∈ s.taken ∧ (s.worker w).serves ≠ some c
  closed_once : s.closed.Nodup

theorem kept_init : Kept (State.init n) where
  numbered := rfl
  queued := rfl
  first w c h := by cases h
  serves w c h := by cases h
  closed w c := by simp [State.init]
  closed_once := List.nodup_nil

section Frame

variable {s s' : State n}

theorem Kept.nodup_accepted (h : Kept s) : s.accepted.Nodup := by
  apply List.Nodup.of_map Accepted.number
  rw [h.numbered]
  exact List.nodup_range

theorem Kept.not_taken (h : Kept s) {c : Accepted} (hc : c ∈ s.pending_fd) :
    c ∉ s.taken.map (·.2) := by
  have hnodup := h.nodup_accepted
  rw [h.queued, List.append_assoc] at hnodup
  exact fun hmem => List.disjoint_of_nodup_append hnodup hmem (List.mem_append_left _ hc)

theorem Kept.frame (h : Kept s) (haccepted : s'.accepted = s.accepted)
    (htaken : s'.taken = s.taken) (hpending : s'.pending_fd = s.pending_fd)
    (hholds : s'.listen.holds = s.listen.holds) (hclosed : s'.closed = s.closed)
    (hfirst : ∀ w c, s'.worker w = .front c → s.pending_fd.head? = some c)
    (hserves : ∀ w, (s'.worker w).serves = (s.worker w).serves) : Kept s' where
  numbered := by rw [haccepted, h.numbered]
  queued := by rw [haccepted, htaken, hpending, hholds, ← h.queued]
  first w c hw := by rw [hpending, hfirst w c hw]
  serves w c hw := by
    rw [htaken]
    exact h.serves w c (hserves w ▸ hw)
  closed w c := by rw [hclosed, htaken, hserves, h.closed]
  closed_once := hclosed ▸ h.closed_once

theorem Kept.move_worker (h : Kept s) {w : Fin n} {place : WorkerPlace}
    (hfirst : ∀ c, place = .front c → s.pending_fd.head? = some c)
    (hserves : place.serves = (s.worker w).serves) (pending_semaphore : Nat)
    (queue_lock : Option (Owner n)) :
    Kept { s.setPlace w place with pending_semaphore, queue_lock } := by
  refine h.frame rfl rfl rfl rfl rfl (fun v c hv => ?_) (update_congr WorkerPlace.serves hserves)
  rcases update_cases s.worker w place v with ⟨rfl, hplace⟩ | hplace
  · exact hfirst c (hplace.symm.trans hv)
  · exact h.first v c (hplace.symm.trans hv)

end Frame

section Step

variable {s s' : State n} {a : Action n}

theorem kept_accept (h : Kept s) (new_fd : Int32) (hlisten : s.listen = .accepting) :
    Kept { s with
      listen := .accepted ⟨new_fd, s.accepted.length⟩
      accepted := s.accepted ++ [⟨new_fd, s.accepted.length⟩] } where
  numbered := by
    rw [List.map_append, h.numbered, List.length_append, List.length_singleton, List.range_succ]
    rfl
  queued := by
    have hqueued := h.queued
    rw [hlisten, ListenPlace.holds, Option.toList_none, List.append_nil] at hqueued
    exact congrArg (· ++ _) hqueued
  first := h.first
  serves := h.serves
  closed := h.closed
  closed_once := h.closed_once

theorem kept_push (h : Kept s) {c : Accepted} (hlisten : s.listen = .locked c) :
    Kept { s with pending_fd := s.pending_fd ++ [c], listen := .pushed } where
  numbered := h.numbered
  queued := by
    rw [h.queued, hlisten, ListenPlace.holds, ListenPlace.holds, Option.toList_some,
      Option.toList_none, List.append_nil, List.append_assoc]
  first w c' hw := by
    have hfirst := h.first w c' hw
    rw [List.head?_append, hfirst]
    rfl
  serves := h.serves
  closed := h.closed
  closed_once := h.closed_once

theorem kept_pop (hlocks : Guarded s) (h : Kept s) {w : Fin n} {c first : Accepted}
    {pending_fd : List Accepted} (hplace : s.worker w = .front c)
    (hqueue : s.pending_fd = first :: pending_fd) :
    Kept { s.setPlace w (.popped c) with pending_fd, taken := s.taken ++ [(w, c)] } := by
  have hhead := h.first w c hplace
  rw [hqueue, List.head?_cons, Option.some.injEq] at hhead
  subst hhead
  have hqueued := h.queued
  rw [hqueue] at hqueued
  have hnew : first ∉ s.taken.map (·.2) := h.not_taken (by simp [hqueue])
  have hnever : ∀ v, (v, first) ∉ s.taken := fun v hv => hnew (List.mem_map_of_mem hv)
  refine ⟨h.numbered, ?_, fun v c' hv => ?_, fun v c' hv => ?_, fun v c' => ?_, h.closed_once⟩
  · show s.accepted = (s.taken ++ [(w, first)]).map (·.2) ++ pending_fd ++ s.listen.holds.toList
    rw [hqueued, List.map_append, List.map_singleton, List.append_assoc (s.taken.map (·.2)) [first],
      List.singleton_append]
  · have hne : v ≠ w := by
      rintro rfl
      rw [State.setPlace_worker_self] at hv
      cases hv
    rw [State.setPlace_worker_ne s _ hne] at hv
    have hin : s.inside (.worker w) = true := by simp [State.inside, hplace, WorkerPlace.inside]
    have hout := Guards.outside hlocks hin (show Owner.worker v ≠ .worker w by simpa using hne)
    simp [State.inside, hv, WorkerPlace.inside] at hout
  · rw [List.mem_append, List.mem_singleton]
    replace hv : (Function.update s.worker w (.popped first) v).serves = some c' := hv
    rcases update_cases s.worker w (.popped first) v with ⟨rfl, hself⟩ | hother
    · rw [hself, WorkerPlace.serves, Option.some.injEq] at hv
      exact .inr (by rw [hv])
    · rw [hother] at hv
      exact .inl (h.serves v c' hv)
  · show (v, c') ∈ s.closed ↔ (v, c') ∈ s.taken ++ [(w, first)] ∧
      ((s.setPlace w (.popped first)).worker v).serves ≠ some c'
    rw [h.closed, List.mem_append, List.mem_singleton, Prod.mk.injEq]
    by_cases hvw : v = w
    · subst hvw
      rw [hplace, State.setPlace_worker_self, WorkerPlace.serves, WorkerPlace.serves]
      by_cases hc : c' = first
      · subst hc
        simp [hnever v]
      · simp [hc, Ne.symm hc]
    · rw [State.setPlace_worker_ne s _ hvw]
      simp [hvw]

theorem kept_close (h : Kept s) {w : Fin n} {c : Accepted} (hplace : s.worker w = .handled c) :
    Kept { s.setPlace w .waiting with closed := s.closed ++ [(w, c)] } := by
  have htaken : (w, c) ∈ s.taken := h.serves w c (by rw [hplace]; rfl)
  have hopen : (w, c) ∉ s.closed := by
    rw [h.closed, hplace]
    exact fun hclosed => hclosed.2 rfl
  refine ⟨h.numbered, h.queued, fun v c' hv => ?_, fun v c' hv => ?_, fun v c' => ?_, ?_⟩
  · rcases update_cases s.worker w .waiting v with ⟨-, hself⟩ | hother
    · cases hself.symm.trans hv
    · exact h.first v c' (hother.symm.trans hv)
  · replace hv : (Function.update s.worker w .waiting v).serves = some c' := hv
    rcases update_cases s.worker w .waiting v with ⟨-, hself⟩ | hother
    · rw [hself] at hv
      cases hv
    · rw [hother] at hv
      exact h.serves v c' hv
  · show (v, c') ∈ s.closed ++ [(w, c)] ↔ (v, c') ∈ s.taken ∧
      ((s.setPlace w .waiting).worker v).serves ≠ some c'
    rw [List.mem_append, List.mem_singleton, Prod.mk.injEq]
    by_cases hvw : v = w
    · subst hvw
      rw [State.setPlace_worker_self, h.closed, hplace, WorkerPlace.serves, WorkerPlace.serves]
      by_cases hc : c' = c
      · subst hc
        simpa using htaken
      · simp [hc, Ne.symm hc]
    · rw [State.setPlace_worker_ne s _ hvw, h.closed]
      simp [hvw]
  · exact h.closed_once.append (List.nodup_singleton _) (by simpa using hopen)

theorem kept_step (hlocks : Guarded s) (h : Kept s) (hs : Step s a s') : Kept s' := by
  cases hs with
  | accept new_fd hlisten hfd => exact kept_accept h new_fd hlisten
  | push c hlisten => exact kept_push h hlisten
  | pop w c first pending_fd hplace hqueue => exact kept_pop hlocks h hplace hqueue
  | close w c hplace => exact kept_close h hplace
  | front w c pending_fd hplace hqueue =>
      refine h.move_worker (fun c' hc' => ?_) (by rw [hplace]; rfl) _ _
      cases hc'
      rw [hqueue, List.head?_cons]
  | accept_failed hlisten => exact h.frame rfl rfl rfl rfl rfl h.first fun _ => rfl
  | listen_lock c hlisten | listen_unlock hlisten | post hlisten =>
      exact h.frame rfl rfl rfl (by rw [hlisten]; rfl) rfl h.first fun _ => rfl
  | wait_interrupted w hplace | wait w pending_semaphore hplace | lock w hplace
  | front_empty w hplace | pop_empty w c hplace | unlock w c hplace | handle w c hplace =>
      exact h.move_worker (by simp) (by rw [hplace]; rfl) _ _

end Step

/-! ## The semaphore and the queue -/

def WorkerPlace.token : WorkerPlace → Bool
  | .woken | .locked | .front _ | .fault => true
  | .waiting | .popped _ | .handling _ | .handled _ => false

def ListenPlace.owes : ListenPlace → Bool
  | .pushed | .unlocked => true
  | .accepting | .accepted _ | .locked _ => false

def interrupts (_ : State n) : Action n → Bool
  | .wait _ interrupted => interrupted
  | .accept _ | .listen | .worker _ => false

/-- The semaphore and the tokens of the workers exceed the queue by `k`. -/
def BalancedUpTo (k : Nat) (s : State n) : Prop :=
  s.pending_fd.length + k =
    s.pending_semaphore + numAt WorkerPlace.token s.worker + s.listen.owes.toNat

theorem balancedUpTo_init : BalancedUpTo 0 (State.init n) := by
  have hnone : numAt WorkerPlace.token (State.init n).worker = 0 :=
    numAt_eq_zero_iff.mpr fun _ => rfl
  rw [BalancedUpTo, hnone]
  rfl

section Balance

variable {s s' : State n} {a : Action n} {k : Nat}

theorem numAt_token_setPlace (s : State n) (w : Fin n) (place : WorkerPlace) :
    numAt WorkerPlace.token (s.setPlace w place).worker + (s.worker w).token.toNat =
      numAt WorkerPlace.token s.worker + place.token.toNat :=
  numAt_update WorkerPlace.token s.worker w place

theorem BalancedUpTo.frame (h : BalancedUpTo k s) {w : Fin n} {place : WorkerPlace}
    (hpending : s'.pending_fd = s.pending_fd)
    (hsem : s'.pending_semaphore = s.pending_semaphore) (hlisten : s'.listen = s.listen)
    (hworker : s'.worker = Function.update s.worker w place)
    (htoken : place.token = (s.worker w).token) : BalancedUpTo k s' := by
  rw [BalancedUpTo, hpending, hsem, hlisten, hworker, numAt_update_of_eq htoken]
  exact h

/-- A step keeps the balance, up to the token of a wait that returns early. -/
theorem balancedUpTo_step (h : BalancedUpTo k s) (hs : Step s a s') :
    BalancedUpTo (k + (interrupts s a).toNat) s' := by
  unfold BalancedUpTo at *
  cases hs with
  | accept_failed hlisten => exact h
  | accept new_fd hlisten | listen_lock c hlisten | listen_unlock hlisten =>
      simpa only [hlisten, ListenPlace.owes, interrupts, Bool.toNat_false, Nat.add_zero] using h
  | push c hlisten =>
      simp only [hlisten, ListenPlace.owes, interrupts, List.length_append, List.length_singleton,
        Bool.toNat_false, Bool.toNat_true] at h ⊢
      omega
  | post hlisten =>
      simp only [hlisten, ListenPlace.owes, interrupts, Bool.toNat_false, Bool.toNat_true] at h ⊢
      omega
  | wait_interrupted w hplace =>
      have htokens := numAt_token_setPlace s w .woken
      simp only [hplace, WorkerPlace.token, Bool.toNat_false, Bool.toNat_true] at htokens
      simp only [interrupts, Bool.toNat_true]
      show s.pending_fd.length + _ = s.pending_semaphore + _ + s.listen.owes.toNat
      omega
  | wait w pending_semaphore hplace hsem =>
      have htokens := numAt_token_setPlace s w .woken
      simp only [hplace, WorkerPlace.token, Bool.toNat_false, Bool.toNat_true] at htokens
      simp only [interrupts, Bool.toNat_false]
      show s.pending_fd.length + _ = pending_semaphore + _ + s.listen.owes.toNat
      omega
  | pop w c first pending_fd hplace hqueue =>
      have htokens := numAt_token_setPlace s w (.popped c)
      simp only [hplace, WorkerPlace.token, Bool.toNat_false, Bool.toNat_true] at htokens
      rw [hqueue, List.length_cons] at h
      simp only [interrupts, Bool.toNat_false]
      show pending_fd.length + _ = s.pending_semaphore +
        numAt WorkerPlace.token (s.setPlace w (.popped c)).worker + s.listen.owes.toNat
      omega
  | lock w hplace | front w c pending_fd hplace | front_empty w hplace | pop_empty w c hplace
  | unlock w c hplace | handle w c hplace | close w c hplace =>
      exact BalancedUpTo.frame h rfl rfl rfl rfl (by rw [hplace]; rfl)

/-- Along a run the tokens without a connection are the waits that returned early. -/
theorem balancedUpTo_of_run {acts : List (Action n)}
    (hrun : run step (State.init n) acts = some s) :
    BalancedUpTo (cost step (fun s a => (interrupts s a).toNat) (State.init n) acts) s := by
  have hbalance := run_cost (fun s a => (interrupts s a).toNat) BalancedUpTo hrun balancedUpTo_init
    fun k s a s' h hs => balancedUpTo_step h (step_sound hs)
  rwa [Nat.zero_add] at hbalance

theorem BalancedUpTo.filled (h : BalancedUpTo 0 s) {w : Fin n}
    (hw : (s.worker w).token = true) : s.pending_fd ≠ [] := by
  intro hempty
  have hpos : 0 < numAt WorkerPlace.token s.worker := numAt_pos hw
  rw [BalancedUpTo, hempty, List.length_nil] at h
  omega

theorem State.fault_of_move {w v : Fin n} {place : WorkerPlace} (hplace : place ≠ .fault)
    (hworker : s'.worker = Function.update s.worker w place) (h : s'.worker v = .fault) :
    s.worker v = .fault := by
  rw [hworker] at h
  exact update_imp (fun p : WorkerPlace => p = .fault) (fun hfault => absurd hfault hplace) h

/-- A worker fails at `front()` or `pop()` of an empty queue, or has failed before. -/
theorem Step.fault {w : Fin n} (hs : Step s a s') (h : s'.worker w = .fault) :
    s.worker w = .fault ∨ ((s.worker w).token = true ∧ s.pending_fd = []) := by
  cases hs with
  | accept_failed | accept | listen_lock | push | listen_unlock | post => exact .inl h
  | front_empty v hplace hqueue | pop_empty v c hplace hqueue =>
      by_cases hv : w = v
      · subst hv
        exact .inr ⟨by rw [hplace]; rfl, hqueue⟩
      · rw [State.setPlace_worker_ne s _ hv] at h
        exact .inl h
  | wait_interrupted v | wait v | lock v | front v | pop v | unlock v | handle v | close v =>
      exact .inl (State.fault_of_move (by simp) rfl h)

end Balance

/-! ## Every connection is served once -/

/-- No `sem_wait` of a worker returns before it has taken a token. -/
def Uninterrupted (s : State n) (a : Action n) : Prop := interrupts s a = false

instance (s : State n) (a : Action n) : Decidable (Uninterrupted s a) :=
  inferInstanceAs (Decidable (interrupts s a = false))

structure ServedOnce (s : State n) : Prop where
  no_fault : ∀ w, s.worker w ≠ .fault
  filled : ∀ w, (s.worker w).token = true → s.pending_fd ≠ []
  distinct : s.accepted.Nodup
  /-- the workers take the connections in the order of acceptance, and none gets lost -/
  in_order : s.taken.map (·.2) ++ s.pending_fd ++ s.listen.holds.toList = s.accepted
  taken_once : (s.taken.map (·.2)).Nodup
  closed_by : ∀ w c, (w, c) ∈ s.closed ↔ (w, c) ∈ s.taken ∧ (s.worker w).serves ≠ some c
  closed_once : (s.closed.map (·.2)).Nodup

section Claim

variable {s : State n}

theorem Kept.nodup_taken (h : Kept s) : (s.taken.map (·.2)).Nodup := by
  have hnodup := h.nodup_accepted
  rw [h.queued, List.append_assoc] at hnodup
  exact hnodup.of_append_left

theorem Kept.nodup_closed (h : Kept s) : (s.closed.map (·.2)).Nodup := by
  refine h.closed_once.map_on fun t ht u hu heq => ?_
  have htaken : t ∈ s.taken := ((h.closed t.1 t.2).mp ht).1
  have hutaken : u ∈ s.taken := ((h.closed u.1 u.2).mp hu).1
  exact List.inj_on_of_nodup_map h.nodup_taken htaken hutaken heq

theorem kept_of_reachable (h : Reachable step (State.init n) s) : Guarded s ∧ Kept s := by
  induction h with
  | start => exact ⟨guarded_init, kept_init⟩
  | next _ _ hs ih => exact ⟨guarded_step ih.1 (step_sound hs), kept_step ih.1 ih.2 (step_sound hs)⟩

theorem balanced_of_uninterrupted (h : Reaches step Uninterrupted (State.init n) s) :
    BalancedUpTo 0 s ∧ ∀ w, s.worker w ≠ .fault := by
  induction h with
  | start => exact ⟨balancedUpTo_init, fun _ => nofun⟩
  | @next s s' a _ hok hs ih =>
      obtain ⟨hbalance, hfault⟩ := ih
      have hstep := balancedUpTo_step hbalance (step_sound hs)
      rw [show interrupts s a = false from hok] at hstep
      refine ⟨hstep, fun w hw => ?_⟩
      rcases (step_sound hs).fault hw with hold | ⟨htoken, hempty⟩
      · exact hfault w hold
      · exact hbalance.filled htoken hempty

/-- In every run without an interrupted wait, for any number of workers. -/
theorem servedOnce_of_uninterrupted (h : Reaches step Uninterrupted (State.init n) s) :
    ServedOnce s := by
  obtain ⟨hbalance, hfault⟩ := balanced_of_uninterrupted h
  obtain ⟨-, hkept⟩ := kept_of_reachable h.reachable
  exact {
    no_fault := hfault
    filled := fun w hw => hbalance.filled hw
    distinct := hkept.nodup_accepted
    in_order := hkept.queued.symm
    taken_once := hkept.nodup_taken
    closed_by := hkept.closed
    closed_once := hkept.nodup_closed }

end Claim

def oneConnection (w : Fin n) : List (Action n) :=
  [.accept 5, .listen, .listen, .listen, .listen, .wait w false, .worker w, .worker w, .worker w,
    .worker w, .worker w, .worker w]

theorem servedOnce_oneConnection : ∃ s : State 1,
    (∃ c, s.closed = [(0, c)] ∧ c.fd = 5) ∧ ServedOnce s := by
  obtain ⟨s, hrun, hclosed⟩ : ∃ s : State 1,
      run (fun s a => if Uninterrupted s a then step s a else none) (State.init 1)
        (oneConnection 0) = some s ∧ s.closed = [(0, ⟨5, 0⟩)] := ⟨_, rfl, rfl⟩
  exact ⟨s, ⟨_, hclosed, rfl⟩, servedOnce_of_uninterrupted (.of_run hrun)⟩

/-- A signal during `sem_wait` sends the worker to the empty queue. -/
theorem fault_after_interrupt : ∃ s : State 1,
    Reachable step (State.init 1) s ∧ s.worker 0 = .fault ∧ ¬ServedOnce s := by
  obtain ⟨s, hrun, hfault⟩ : ∃ s : State 1,
      run step (State.init 1) [.wait 0 true, .worker 0, .worker 0] = some s ∧
        s.worker 0 = .fault := ⟨_, rfl, rfl⟩
  exact ⟨s, .of_run hrun, hfault, fun h => h.no_fault 0 hfault⟩

end SnappCollector.Control
