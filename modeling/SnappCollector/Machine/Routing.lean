import SnappCollector.Machine.Pool

/-!
# Routing by key into FIFO queues

Messages enter one at a time, each is put at the end of the queue that its key
is routed to, and the owner of a queue takes from its front.  Whatever the order
of these steps, the messages of one key are received by one owner, in the order
in which they were sent, none lost in between and none twice.
-/

namespace SnappCollector.Machine

variable {μ κ ι : Type*} [DecidableEq κ] [DecidableEq ι]

structure Channel (μ ι : Type*) where
  sent : List μ
  /-- sent, and not yet in a queue -/
  pending : Option μ
  queue : ι → List μ
  received : List (ι × μ)

namespace Channel

def on (key : μ → κ) (k : κ) (ms : List μ) : List μ := ms.filter (key · = k)

variable {key : μ → κ} {route : κ → ι} {c c' : Channel μ ι} {k : κ}

omit [DecidableEq ι] in
@[simp] theorem on_append (key : μ → κ) (k : κ) (ms ns : List μ) :
    on key k (ms ++ ns) = on key k ms ++ on key k ns := List.filter_append ..

omit [DecidableEq ι] in
@[simp] theorem on_nil (key : μ → κ) (k : κ) : on key k [] = [] := rfl

omit [DecidableEq ι] in
theorem on_singleton_of_ne {m : μ} (h : key m ≠ k) : on key k [m] = [] := by
  simp [on, h]

omit [DecidableEq ι] in
theorem on_cons (key : μ → κ) (k : κ) (m : μ) (ms : List μ) :
    on key k (m :: ms) = on key k [m] ++ on key k ms := by
  rw [← on_append, List.singleton_append]

inductive Step (key : μ → κ) (route : κ → ι) (c : Channel μ ι) : Channel μ ι → Prop where
  | send (m : μ) (hidle : c.pending = none) :
      Step key route c { c with sent := c.sent ++ [m], pending := some m }
  | deliver (m : μ) (hpending : c.pending = some m) :
      Step key route c
        { c with
          pending := none
          queue := Function.update c.queue (route (key m)) (c.queue (route (key m)) ++ [m]) }
  | take (i : ι) (m : μ) (rest : List μ) (hqueue : c.queue i = m :: rest) :
      Step key route c
        { c with
          queue := Function.update c.queue i rest
          received := c.received ++ [(i, m)] }

/-- Every message is where its key is routed, and per key what was sent is what
was received, then what is queued, then what is pending. -/
structure Ordered (key : μ → κ) (route : κ → ι) (c : Channel μ ι) : Prop where
  queued : ∀ i, ∀ m ∈ c.queue i, route (key m) = i
  received : ∀ p ∈ c.received, route (key p.2) = p.1
  order : ∀ k, on key k c.sent =
    on key k (c.received.map (·.2)) ++ on key k (c.queue (route k)) ++ on key k c.pending.toList

omit [DecidableEq ι] in
theorem ordered_empty : Ordered key route ⟨[], none, fun _ => [], []⟩ where
  queued i m hm := by simp at hm
  received p hp := by simp at hp
  order k := by simp

theorem Ordered.step (h : Ordered key route c) (hs : Step key route c c') :
    Ordered key route c' := by
  cases hs with
  | send m hidle =>
      refine ⟨h.queued, h.received, fun k => ?_⟩
      have hk := h.order k
      rw [hidle] at hk
      simp only [Option.toList_none, on_nil, List.append_nil] at hk
      simp [hk]
  | deliver m hpending =>
      refine ⟨fun i m' hm' => ?_, h.received, fun k => ?_⟩
      · by_cases hi : i = route (key m)
        · subst hi
          simp only [Function.update_self, List.mem_append, List.mem_singleton] at hm'
          rcases hm' with hold | rfl
          · exact h.queued _ _ hold
          · rfl
        · simp only [Function.update_of_ne hi] at hm'
          exact h.queued i m' hm'
      · have hk := h.order k
        rw [hpending] at hk
        by_cases hroute : route k = route (key m)
        · simp only [hroute, Function.update_self, on_append]
          rw [hk, hroute]
          simp
        · have hkey : key m ≠ k := fun heq => hroute (by rw [heq])
          simp only [Option.toList_some, on_singleton_of_ne hkey] at hk
          simp [hk, Function.update_of_ne hroute]
  | take i m rest hqueue =>
      have hm : route (key m) = i := h.queued i m (by simp [hqueue])
      refine ⟨fun j m' hm' => ?_, fun p hp => ?_, fun k => ?_⟩
      · by_cases hj : j = i
        · subst hj
          simp only [Function.update_self] at hm'
          exact h.queued j m' (by simp [hqueue, hm'])
        · simp only [Function.update_of_ne hj] at hm'
          exact h.queued j m' hm'
      · rcases List.mem_append.mp hp with hold | hnew
        · exact h.received p hold
        · rw [List.mem_singleton.mp hnew]
          exact hm
      · have hk := h.order k
        by_cases hroute : route k = i
        · rw [hroute, hqueue, on_cons] at hk
          simp [hk, hroute]
        · have hkey : key m ≠ k := fun heq => hroute (by rw [← heq, hm])
          simp [hk, Function.update_of_ne hroute, on_singleton_of_ne hkey]

omit [DecidableEq ι] in
theorem Ordered.received_prefix (h : Ordered key route c) (k : κ) :
    on key k (c.received.map (·.2)) <+: on key k c.sent := by
  rw [h.order k, List.append_assoc]
  exact List.prefix_append _ _

omit [DecidableEq ι] in
theorem Ordered.receiver (h : Ordered key route c) {p : ι × μ} (hp : p ∈ c.received)
    (hk : key p.2 = k) : p.1 = route k := by
  rw [← h.received p hp, hk]

/-! ## Counting messages -/

def taken (c : Channel μ ι) (i : ι) : Nat := (c.received.map (·.1)).count i

def put (c : Channel μ ι) (i : ι) : Nat := (c.queue i).length + c.taken i

omit [DecidableEq κ] in
theorem Step.counts_le (hs : Step key route c c') (i : ι) :
    c.put i ≤ c'.put i ∧ c.taken i ≤ c'.taken i := by
  cases hs with
  | send m hidle => exact ⟨le_rfl, le_rfl⟩
  | deliver m hpending =>
      by_cases hi : i = route (key m)
      · subst hi
        simp [put, taken]
      · simp [put, taken, hi]
  | take j m rest hqueue =>
      by_cases hi : i = j
      · subst hi
        simp only [put, taken, hqueue, Function.update_self, List.length_cons, List.map_append,
          List.map_cons, List.map_nil, List.count_append, List.count_singleton_self]
        omega
      · have hne : j ≠ i := Ne.symm hi
        simp [put, taken, hi, hne]

section Counted

variable [Fintype ι]

theorem sum_taken (c : Channel μ ι) : ∑ i, c.taken i = c.received.length := by
  have hcard := Multiset.sum_count_eq_card (s := Finset.univ)
    (m := ((c.received.map (·.1) : List ι) : Multiset ι)) fun i _ => Finset.mem_univ i
  simpa [taken] using hcard

/-- Every message was put into a queue or is pending. -/
def Counted (c : Channel μ ι) : Prop := ∑ i, c.put i + c.pending.toList.length = c.sent.length

theorem counted_empty : Counted (⟨[], none, fun _ => [], []⟩ : Channel μ ι) := by
  simp [Counted, put, taken]

omit [DecidableEq κ] in
theorem Counted.step (h : Counted c) (hs : Step key route c c') : Counted c' := by
  unfold Counted at *
  cases hs with
  | send m hidle =>
      rw [hidle] at h
      simp only [Option.toList_none, List.length_nil, Nat.add_zero] at h
      simp only [Option.toList_some, List.length_append, List.length_singleton]
      rw [← h]
      rfl
  | deliver m hpending =>
      have hsum := sum_add_of_eq (f := c.put)
        (g := put { c with
          pending := none
          queue := Function.update c.queue (route (key m)) (c.queue (route (key m)) ++ [m]) })
        (i := route (key m)) fun i hi => by simp [put, taken, hi]
      rw [hpending] at h
      simp only [put, taken, Function.update_self, List.length_append, List.length_singleton,
        Option.toList_some, Option.toList_none, List.length_nil] at hsum h ⊢
      omega
  | take j m rest hqueue =>
      have hsame : ∀ i, put { c with
          queue := Function.update c.queue j rest, received := c.received ++ [(j, m)] } i =
            c.put i := by
        intro i
        by_cases hi : i = j
        · subst hi
          simp only [put, taken, hqueue, Function.update_self, List.length_cons, List.map_append,
            List.map_cons, List.map_nil, List.count_append, List.count_singleton_self]
          omega
        · have hne : j ≠ i := Ne.symm hi
          simp [put, taken, hi, hne]
      simp only [hsame]
      exact h

end Counted

end Channel

end SnappCollector.Machine
