import SnappCollector.Writer.Proofs.Progress
import SnappCollector.Writer.Proofs.Values

/-!
# What has been done when the writer is at rest

A worker updates the file of every datum that it takes before it takes the next one.  At
rest nothing is in hand, so per file the updates are the calls in their order, less the data
that are left in the queue for tokens that were thrown away.
-/

namespace SnappCollector.Writer

open CLib Data Machine

variable {n : Nat}

def State.inHand (s : State n) (w : Fin n) : List PushCall :=
  ((s.worker w).place.entry?.map (·.call)).toList

/-- The arguments of an update are those of a datum that was taken, with the names that the
tables hold for it. -/
structure UpdateOf (libc : Libc) (s : State n) (u : Update) (entry : Entry)
    (file_info : RRD_File_info) (rrd_template stack : CStr) : Prop where
  taken : ∃ w, ⟨w, entry⟩ ∈ s.popped
  file : s.writer.file_info[entry.datum.filename_id.toNat]? = some file_info
  template : s.writer.rrd_template[entry.datum.template_id.toNat]? = some rrd_template
  call : u.call = entry.call
  filename : u.filename = strncpy stack file_info.filename (CONST_STRING_SIZE - 1)
  template_str : u.template_str = strncpy stack rrd_template (CONST_STRING_SIZE - 1)
  value_str : u.value_str = Writer.value_str libc entry.datum

/-- Per file the data taken are those of the updates made, and then the one in hand. -/
def UpdatesInOrder [NeZero n] (s : State n) : Prop :=
  ∀ f, Channel.on PushCall.filename f (s.popped.map (·.entry.call)) =
    Channel.on PushCall.filename f (s.updates.map (·.call)) ++
      Channel.on PushCall.filename f (s.inHand (queue_index n f))

structure UpdateInv [NeZero n] (libc : Libc) (s : State n) : Prop where
  order : UpdatesInOrder s
  made : ∀ u ∈ s.updates, ∃ entry file_info rrd_template stack,
    UpdateOf libc s u entry file_info rrd_template stack

theorem updateInv_init [NeZero n] {libc : Libc} : UpdateInv libc (State.init n) where
  order f := rfl
  made u hu := by simp [State.init] at hu

section Moves

variable {libc : Libc} {s s' : State n}

theorem UpdateOf.extend {u : Update} {entry : Entry} {file_info : RRD_File_info}
    {rrd_template stack : CStr} (h : UpdateOf libc s u entry file_info rrd_template stack)
    (hext : s.writer.Extends s'.writer) (hpopped : s.popped <+: s'.popped) :
    UpdateOf libc s' u entry file_info rrd_template stack where
  taken := by
    obtain ⟨w, hw⟩ := h.taken
    exact ⟨w, hpopped.subset hw⟩
  file := getElem?_mono hext.files h.file
  template := getElem?_mono hext.templates h.template
  call := h.call
  filename := h.filename
  template_str := h.template_str
  value_str := h.value_str

theorem State.inHand_congr {w : Fin n} {r : RRD_Writer_worker}
    (hworker : s'.worker = Function.update s.worker w r)
    (hr : r.place.entry? = (s.worker w).place.entry?) (v : Fin n) : s'.inHand v = s.inHand v := by
  simp only [State.inHand]
  rw [State.place_congr (fun p => p.entry?) hworker hr v]

end Moves

section Step

variable [NeZero n] {libc : Libc} {s s' : State n} {a : Action n}

theorem UpdatesInOrder.frame (h : UpdatesInOrder s) (hpopped : s'.popped = s.popped)
    (hupdates : s'.updates = s.updates) (hhand : ∀ w, s'.inHand w = s.inHand w) :
    UpdatesInOrder s' := by
  intro f
  rw [hpopped, hupdates, hhand]
  exact h f

theorem UpdatesInOrder.pop (h : UpdatesInOrder s) {w : Fin n} {entry : Entry}
    (hroute : queue_index n entry.call.filename = w) (hplace : (s.worker w).place = .front)
    (hpopped : s'.popped = s.popped ++ [⟨w, entry⟩]) (hupdates : s'.updates = s.updates)
    (hworker : s'.worker = Function.update s.worker w { s.worker w with place := .popped entry }) :
    UpdatesInOrder s' := by
  intro f
  have hold := h f
  rw [hpopped, hupdates, List.map_append, Channel.on_append, hold]
  by_cases hf : queue_index n f = w
  · have hempty : s.inHand w = [] := by simp [State.inHand, hplace, WorkerPlace.entry?]
    have hhand : s'.inHand w = [entry.call] := by
      simp [State.inHand, hworker, WorkerPlace.entry?]
    rw [hf, hempty, hhand]
    simp
  · have hne : entry.call.filename ≠ f := fun heq => hf (by rw [← heq, hroute])
    have hhand : s'.inHand (queue_index n f) = s.inHand (queue_index n f) := by
      simp [State.inHand, hworker, Function.update_of_ne hf]
    rw [hhand, List.map_singleton, Channel.on_singleton_of_ne hne, List.append_nil]

theorem UpdatesInOrder.update (h : UpdatesInOrder s) {w : Fin n} {entry : Entry} {u : Update}
    {r : RRD_Writer_worker} (hroute : queue_index n entry.call.filename = w)
    (hplace : (s.worker w).place.entry? = some entry) (hu : u.call = entry.call)
    (hr : r.place.entry? = none) (hpopped : s'.popped = s.popped)
    (hupdates : s'.updates = s.updates ++ [u])
    (hworker : s'.worker = Function.update s.worker w r) :
    UpdatesInOrder s' := by
  intro f
  have hold := h f
  rw [hpopped, hupdates, List.map_append, Channel.on_append, List.map_singleton, hu, hold]
  by_cases hf : queue_index n f = w
  · have hbefore : s.inHand w = [entry.call] := by simp [State.inHand, hplace]
    have hempty : s'.inHand w = [] := by simp [State.inHand, hworker, hr]
    rw [hf, hbefore, hempty]
    simp
  · have hne : entry.call.filename ≠ f := fun heq => hf (by rw [← heq, hroute])
    have hhand : s'.inHand (queue_index n f) = s.inHand (queue_index n f) := by
      simp [State.inHand, hworker, Function.update_of_ne hf]
    rw [hhand, Channel.on_singleton_of_ne hne, List.append_nil]

theorem updatesInOrder_step (hdata : DataInv s)
    (hchannel : Channel.Ordered PushCall.filename (queue_index n) s.channel)
    (hfault : ∀ v, (s'.worker v).place ≠ .fault) (h : UpdatesInOrder s) (hs : Step libc s a s') :
    UpdatesInOrder s' := by
  cases hs with
  | call | fill | abort | lock_queue | enqueue | post | unlock_queue | leave | wait_retry =>
      exact h.frame rfl rfl fun _ => rfl
  | wait_taken w semaphore hplace | wait_timeout w hplace | wait_interrupted w hplace
  | worker_lock_queue w hplace | worker_unlock_queue w entry hplace
  | worker_lock w entry hplace | read w entry file_info rrd_template hplace
  | worker_unlock w entry file_info rrd_template hplace =>
      exact h.frame rfl rfl (State.inHand_congr rfl (by simp [hplace, WorkerPlace.entry?]))
  | pop w entry datum_queue hplace hqueue =>
      have hmem : entry.call ∈ s.channel.queue w := by simp [State.channel, hqueue]
      exact h.pop (hchannel.queued w _ hmem) hplace rfl rfl rfl
  | update w stack entry file_info rrd_template hplace =>
      have hentry : (s.worker w).place.entry? = some entry := by rw [hplace]; rfl
      have hmem : (w, entry.call) ∈ s.channel.received :=
        List.mem_map.mpr ⟨_, hdata.held w entry hentry, rfl⟩
      have hroute := hchannel.received _ hmem
      exact h.update hroute hentry rfl rfl rfl rfl rfl
  | pop_empty w | read_outside w => exact absurd (by simp) (hfault w)

/-- An update made by a step is that of the datum in a worker's hand. -/
theorem updates_step (hs : Step libc s a s') : s'.updates = s.updates ∨
    ∃ w entry file_info rrd_template stack,
      (s.worker w).place.seen? = some (entry, file_info, rrd_template) ∧
      (s.worker w).place.entry? = some entry ∧
      s'.updates = s.updates ++ [
        { call := entry.call
          filename := strncpy stack file_info.filename (CONST_STRING_SIZE - 1)
          template_str := strncpy stack rrd_template (CONST_STRING_SIZE - 1)
          value_str := value_str libc entry.datum }] := by
  cases hs with
  | update w stack entry file_info rrd_template hplace =>
      refine .inr ⟨w, entry, file_info, rrd_template, stack, ?_, ?_, rfl⟩
      · rw [hplace]
        rfl
      · rw [hplace]
        rfl
  | _ => exact .inl rfl

theorem updateInv_made_step (hdata : DataInv s) (h : UpdateInv libc s) (hs : Step libc s a s') :
    ∀ u ∈ s'.updates, ∃ entry file_info rrd_template stack,
      UpdateOf libc s' u entry file_info rrd_template stack := by
  have hext : s.writer.Extends s'.writer := by
    rcases writer_step hs with hsame | ⟨c, hnew⟩
    · rw [hsame]
      exact .refl s.writer
    · rw [hnew]
      exact (s.writer.new_datum_spec libc hdata.tables c).2.1
  have hold : ∀ u ∈ s.updates, ∃ entry file_info rrd_template stack,
      UpdateOf libc s' u entry file_info rrd_template stack := by
    intro u hu
    obtain ⟨entry, file_info, rrd_template, stack, hmade⟩ := h.made u hu
    exact ⟨entry, file_info, rrd_template, stack, hmade.extend hext (popped_step hs)⟩
  intro u hu
  rcases updates_step hs with hsame | ⟨w, entry, file_info, rrd_template, stack, hseen, hentry, hnew⟩
  · rw [hsame] at hu
    exact hold u hu
  · rw [hnew] at hu
    rcases List.mem_append.mp hu with hu | hu
    · exact hold u hu
    · rw [List.mem_singleton.mp hu]
      obtain ⟨hfile, htemplate⟩ := hdata.seen w entry file_info rrd_template hseen
      exact ⟨entry, file_info, rrd_template, stack,
        ⟨⟨w, (popped_step hs).subset (hdata.held w entry hentry)⟩,
          getElem?_mono hext.files hfile, getElem?_mono hext.templates htemplate, rfl, rfl, rfl,
          rfl⟩⟩

theorem updateInv_reachable (h : Reachable (step libc) (State.init n) s) :
    UpdateInv libc s := by
  induction h with
  | start => exact updateInv_init
  | next hreach _ hs ih =>
      have hfault := place_ne_fault (hreach.next trivial hs)
      have hdata := dataInv_reachable hreach
      have hstep := (step_sound hs).2
      exact ⟨updatesInOrder_step hdata (ordered_reachable hreach).2 hfault ih.order hstep,
        updateInv_made_step hdata ih hstep⟩

/-- What an update carries: the update text of its call, and the call's own names as long as
these fit the worker's buffers and are among the first `2 ^ 32`. -/
structure Carries (libc : Libc) (s : State n) (u : Update) : Prop where
  value_str : u.value_str = RRD_Writer.empty.update_text libc u.call
  filename : u.call.filename.length < CONST_STRING_SIZE - 1 →
    (u.filename = u.call.filename ↔ s.writer.filenames.idxOf u.call.filename < 2 ^ 32)
  template_str : u.call.in_rrd_template.length < CONST_STRING_SIZE - 1 →
    (u.template_str = u.call.in_rrd_template ↔
      s.writer.rrd_template.idxOf u.call.in_rrd_template < 2 ^ 32)

theorem carries_of_reachable (h : Reachable (step libc) (State.init n) s) {u : Update}
    (hu : u ∈ s.updates) : Carries libc s u := by
  have hdata := dataInv_reachable h
  obtain ⟨entry, file_info, rrd_template, stack, hmade⟩ := (updateInv_reachable h).made u hu
  obtain ⟨w, htaken⟩ := hmade.taken
  have hnames := hdata.names entry (.popped w htaken)
  have hfile := hnames.file_info_iff hdata.tables
  rw [hmade.file, Option.map_some, Option.some.injEq] at hfile
  have htemplate := hnames.rrd_template_iff hdata.tables
  rw [hmade.template, Option.some.injEq] at htemplate
  refine ⟨?_, fun hshort => ?_, fun hshort => ?_⟩
  · rw [hmade.value_str, hmade.call]
    exact holdsUpdates_reachable h entry (.popped w htaken)
  · rw [hmade.call] at hshort ⊢
    rw [hmade.filename, strncpy_eq_iff stack hshort, hfile]
  · rw [hmade.call] at hshort ⊢
    rw [hmade.template_str, strncpy_eq_iff stack hshort, htemplate]

/-! ## At rest -/

/-- Of the calls on file `f` those at the end are left in the queue, and the others have been
made updates, in their order, that carry what the calls said. -/
structure Settled (libc : Libc) (s : State n) (wasted : Nat) (f : CStr) : Prop where
  order : Channel.on PushCall.filename f s.calls =
    Channel.on PushCall.filename f (s.updates.map (·.call)) ++
      Channel.on PushCall.filename f ((s.data_queue (queue_index n f)).datum_queue.map (·.call))
  left : (s.data_queue (queue_index n f)).datum_queue.length = wasted
  carried : ∀ u ∈ s.updates, u.call.filename = f → Carries libc s u

/-- However a run got to rest, the data left in the queue of a file are as many as the tokens
that its worker has thrown away, and the other calls on the file have each led to one update,
in order, with the text of the call and the names that the tables hold for it. -/
theorem settled_of_atRest {acts : List (Action n)}
    (hrun : run (step libc) (State.init n) acts = some s) (hrest : s.AtRest) (f : CStr) :
    Settled libc s (cost (step libc) (fun s a => (wastesToken (queue_index n f) s a).toNat)
      (State.init n) acts) f := by
  have hreach := Reachable.of_run hrun
  have hinv := updateInv_reachable hreach
  refine ⟨?_, ?_, fun u hu _ => carries_of_reachable hreach hu⟩
  · have hsent := (ordered_reachable hreach).2.order f
    have htaken := hinv.order f
    have hhand : s.inHand (queue_index n f) = [] := by
      simp [State.inHand, hrest.waiting, WorkerPlace.entry?]
    rw [hhand, Channel.on_nil, List.append_nil] at htaken
    simp only [State.channel, hrest.push, pendingCall, Option.toList_none, Channel.on_nil,
      List.append_nil, List.map_map] at hsent
    rw [hsent, ← htaken]
    rfl
  · have hbal : BalancedUpTo (queue_index n f) _ s := balancedUpTo_of_run hrun
    unfold BalancedUpTo at hbal
    rw [hrest.push, hrest.waiting, hrest.semaphore] at hbal
    simpa [WorkerPlace.holdsToken, halfway] using hbal

end Step

theorem settled_roundTrip :
    ∃ s : State 1, s.AtRest ∧ s.calls = [numberedCall 0] ∧ Settled decimalLibc s 0 (dec 0) := by
  obtain ⟨datum, hdatum, hnum⟩ := num_ds_numberedCall .empty 0
  obtain ⟨updates', hrun⟩ := run_roundTrip decimalLibc RRD_Writer.wellFormed_empty
    (numberedCall 0) hdatum hnum [] [] []
  obtain ⟨horder, -, hcarried⟩ :=
    settled_of_atRest hrun ⟨rfl, fun _ => rfl, fun _ => rfl⟩ (dec 0)
  exact ⟨_, ⟨rfl, fun _ => rfl, fun _ => rfl⟩, rfl, horder, rfl, hcarried⟩

end SnappCollector.Writer
