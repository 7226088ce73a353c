import SnappCollector.Machine.Routing
import SnappCollector.Writer.Proofs.Locks

/-!
# Order and names of the writer's data

The writer refines a channel that routes calls by filename (`channel_step`), and
every datum in it names the file and the template of its call
(`dataInv_reachable`).  Both together say what the workers find.
-/

namespace SnappCollector.Writer

open CLib Machine

variable {n : Nat}

/-! ## The writer as a channel -/

/-- The call that has taken the lock and not yet reached a queue. -/
def pendingCall : Option (PushCall × PushPlace) → Option PushCall
  | some (c, .entered) | some (c, .filled _) | some (c, .queue_locked _) => some c
  | _ => none

def State.channel (s : State n) : Channel PushCall (Fin n) where
  sent := s.calls
  pending := pendingCall s.push
  queue q := (s.data_queue q).datum_queue.map (·.call)
  received := s.popped.map fun p => (p.worker, p.entry.call)

theorem State.channel_congr {s s' : State n} (hcalls : s'.calls = s.calls)
    (hpush : pendingCall s'.push = pendingCall s.push)
    (hqueue : ∀ q, (s'.data_queue q).datum_queue = (s.data_queue q).datum_queue)
    (hpopped : s'.popped = s.popped) : s'.channel = s.channel := by
  simp [State.channel, hcalls, hpush, hqueue, hpopped]

theorem State.setQueue_datum_queue (s : State n) {q : Fin n} {r : RRD_queue n}
    (hr : r.datum_queue = (s.data_queue q).datum_queue) (p : Fin n) :
    ((s.setQueue q r).data_queue p).datum_queue = (s.data_queue p).datum_queue := by
  by_cases hp : p = q
  · rw [hp, State.setQueue_self, hr]
  · rw [State.setQueue_ne s r hp]

variable [NeZero n] {libc : Libc} {s s' : State n} {a : Action n}

/-- Every step of the writer is a step of the channel or leaves it alone. -/
theorem channel_step (hlocks : Guarded s) (hs : Step libc s a s') :
    s'.channel = s.channel ∨
      Channel.Step PushCall.filename (queue_index n) s.channel s'.channel := by
  cases hs with
  | call c hlock =>
      right
      have hidle : s.push = none := hlocks.push_eq_none hlock
      have hpending : s.channel.pending = none := by simp [State.channel, hidle, pendingCall]
      exact .send c hpending
  | enqueue c datum hpush =>
      right
      have hpending : s.channel.pending = some c := by simp [State.channel, hpush, pendingCall]
      have hstep : Channel.Step PushCall.filename (queue_index n) s.channel _ :=
        .deliver c hpending
      convert hstep using 1
      simp only [State.channel, Channel.mk.injEq]
      refine ⟨rfl, rfl, ?_, rfl⟩
      funext q
      by_cases hq : q = queue_index n c.filename
      · subst hq
        simp
      · simp [State.setQueue, hq]
  | pop w entry datum_queue hplace hqueue =>
      right
      have hhead : s.channel.queue w = entry.call :: datum_queue.map (·.call) := by
        simp [State.channel, hqueue]
      have hstep : Channel.Step PushCall.filename (queue_index n) s.channel _ :=
        .take w _ _ hhead
      convert hstep using 1
      simp only [State.channel, Channel.mk.injEq]
      refine ⟨rfl, rfl, ?_, by simp⟩
      funext q
      by_cases hq : q = w
      · subst hq
        simp
      · simp [State.setQueue, hq]
  | fill c datum hpush | leave c hpush =>
      left
      exact State.channel_congr rfl (by simp [hpush, pendingCall]) (fun _ => rfl) rfl
  | lock_queue c datum hpush | post c hpush | unlock_queue c hpush =>
      left
      exact State.channel_congr rfl (by simp [hpush, pendingCall])
        (State.setQueue_datum_queue s rfl) rfl
  | wait_taken w | wait_retry w | worker_lock_queue w | worker_unlock_queue w =>
      exact .inl (State.channel_congr rfl rfl (State.setQueue_datum_queue s rfl) rfl)
  | abort | wait_timeout | wait_interrupted | pop_empty | worker_lock | read | read_outside
  | worker_unlock | update =>
      exact .inl rfl

theorem ordered_reachable (h : Reachable (step libc) (State.init n) s) :
    Guarded s ∧ Channel.Ordered PushCall.filename (queue_index n) s.channel := by
  apply h.invariant
  · exact ⟨guarded_init, Channel.ordered_empty⟩
  · intro s a s' hinv _ hs
    have hstep := (step_sound hs).2
    refine ⟨guarded_step hinv.1 hstep, ?_⟩
    rcases channel_step hinv.1 hstep with hsame | hmove
    · rw [hsame]
      exact hinv.2
    · exact hinv.2.step hmove

end SnappCollector.Writer
