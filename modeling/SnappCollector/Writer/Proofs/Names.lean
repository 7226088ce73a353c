import SnappCollector.Writer.Proofs.Order

/-!
# The names a worker finds

A datum holds ids, and the worker turns them back into names later, after any
number of further calls.  The ids are positions modulo `2 ^ 32`.
-/

namespace SnappCollector.Writer

open CLib Data Machine

variable {n : Nat}

/-- The datum is in a queue, was taken from one, or is being pushed. -/
inductive State.HasEntry (s : State n) (entry : Entry) : Prop where
  | queued (q : Fin n) (hmem : entry ∈ (s.data_queue q).datum_queue)
  | popped (w : Fin n) (hmem : ⟨w, entry⟩ ∈ s.popped)
  | filled (hpush : s.push = some (entry.call, .filled entry.datum))
  | queue_locked (hpush : s.push = some (entry.call, .queue_locked entry.datum))

def WorkerPlace.entry? : WorkerPlace → Option Entry
  | .popped e | .queue_unlocked e | .reading e | .read e _ _ | .writing e _ _ => some e
  | _ => none

def WorkerPlace.seen? : WorkerPlace → Option (Entry × RRD_File_info × CStr)
  | .read e fi t | .writing e fi t => some (e, fi, t)
  | _ => none

structure DataInv (s : State n) : Prop where
  tables : s.writer.WellFormed
  names : ∀ entry, s.HasEntry entry → s.writer.Names entry.datum entry.call
  held : ∀ w entry, (s.worker w).place.entry? = some entry → ⟨w, entry⟩ ∈ s.popped
  seen : ∀ w entry file_info rrd_template,
    (s.worker w).place.seen? = some (entry, file_info, rrd_template) →
      s.writer.file_info[entry.datum.filename_id.toNat]? = some file_info ∧
        s.writer.rrd_template[entry.datum.template_id.toNat]? = some rrd_template

theorem dataInv_init : DataInv (State.init n) where
  tables := RRD_Writer.wellFormed_empty
  names entry h := by
    cases h with
    | queued q hmem => simp [State.init] at hmem
    | popped w hmem => simp [State.init] at hmem
    | filled hpush => cases hpush
    | queue_locked hpush => cases hpush
  held w entry h := by cases h
  seen w entry file_info rrd_template h := by cases h

theorem DataInv.frame {s s' : State n} (h : DataInv s) (hwf : s'.writer.WellFormed)
    (hext : s.writer.Extends s'.writer)
    (hentry : ∀ entry, s'.HasEntry entry →
      s.HasEntry entry ∨ s'.writer.Names entry.datum entry.call)
    (hpopped : s.popped <+: s'.popped)
    (hheld : ∀ w entry, (s'.worker w).place.entry? = some entry →
      (s.worker w).place.entry? = some entry ∨ ⟨w, entry⟩ ∈ s'.popped)
    (hseen : ∀ w found, (s'.worker w).place.seen? = some found →
      (s.worker w).place.seen? = some found ∨
        s.writer.file_info[found.1.datum.filename_id.toNat]? = some found.2.1 ∧
          s.writer.rrd_template[found.1.datum.template_id.toNat]? = some found.2.2) :
    DataInv s' where
  tables := hwf
  names entry he := by
    rcases hentry entry he with hold | hnew
    · exact (h.names entry hold).extend hext
    · exact hnew
  held w entry he := by
    rcases hheld w entry he with hold | hnew
    · exact hpopped.subset (h.held w entry hold)
    · exact hnew
  seen w entry file_info rrd_template hs := by
    have hfound : s.writer.file_info[entry.datum.filename_id.toNat]? = some file_info ∧
        s.writer.rrd_template[entry.datum.template_id.toNat]? = some rrd_template := by
      rcases hseen w _ hs with hold | hnew
      · exact h.seen w entry file_info rrd_template hold
      · exact hnew
    exact ⟨getElem?_mono hext.files hfound.1, getElem?_mono hext.templates hfound.2⟩

/-- The data of a state depend on its queues, the data taken and the call inside. -/
theorem State.HasEntry.congr {s s' : State n} {entry : Entry} (h : s'.HasEntry entry)
    (hqueue : ∀ q, (s'.data_queue q).datum_queue = (s.data_queue q).datum_queue)
    (hpopped : s'.popped = s.popped)
    (hfilled : s'.push = some (entry.call, .filled entry.datum) → s.HasEntry entry)
    (hlocked : s'.push = some (entry.call, .queue_locked entry.datum) → s.HasEntry entry) :
    s.HasEntry entry := by
  cases h with
  | queued q hmem => exact .queued q (by rwa [hqueue] at hmem)
  | popped w hmem => exact .popped w (by rwa [hpopped] at hmem)
  | filled hpush => exact hfilled hpush
  | queue_locked hpush => exact hlocked hpush

theorem State.HasEntry.of_push_eq {s s' : State n} {entry : Entry} (h : s'.HasEntry entry)
    (hqueue : ∀ q, (s'.data_queue q).datum_queue = (s.data_queue q).datum_queue)
    (hpopped : s'.popped = s.popped) (hpush : s'.push = s.push) : s.HasEntry entry :=
  h.congr hqueue hpopped (fun hp => .filled (hpush ▸ hp)) fun hp => .queue_locked (hpush ▸ hp)

variable [NeZero n] {libc : Libc} {s s' : State n} {a : Action n}

theorem hasEntry_step (hs : Step libc s a s') {entry : Entry} (he : s'.HasEntry entry) :
    s.HasEntry entry ∨ s.push = some (entry.call, .entered) ∧
      (s'.writer, some entry.datum) = s.writer.new_datum libc entry.call ∧
        entry.datum.num_ds > 0 := by
  cases hs with
  | call c hlock | leave c hpush =>
      exact .inl (he.congr (fun _ => rfl) rfl (fun hp => by simp at hp) fun hp => by simp at hp)
  | post c hpush | unlock_queue c hpush =>
      exact .inl (he.congr (State.setQueue_datum_queue s rfl) rfl (fun hp => by simp at hp)
        fun hp => by simp at hp)
  | fill c datum hpush hdatum hnum =>
      cases he with
      | queued q hmem => exact .inl (.queued q hmem)
      | popped w hmem => exact .inl (.popped w hmem)
      | filled hp =>
          right
          simp only [Option.some.injEq, Prod.mk.injEq, PushPlace.filled.injEq] at hp
          rw [← hp.1, ← hp.2, ← hdatum]
          exact ⟨hpush, rfl, hnum⟩
      | queue_locked hp => simp at hp
  | lock_queue c datum hpush hfree =>
      refine .inl (he.congr (State.setQueue_datum_queue s rfl) rfl (fun hp => by simp at hp)
        fun hp => ?_)
      simp only [Option.some.injEq, Prod.mk.injEq, PushPlace.queue_locked.injEq] at hp
      exact .filled (by rw [hpush, hp.1, hp.2])
  | enqueue c datum hpush =>
      left
      cases he with
      | queued q hmem =>
          by_cases hq : q = queue_index n c.filename
          · subst hq
            simp only [State.setQueue_self, List.mem_append, List.mem_singleton] at hmem
            rcases hmem with hold | hnew
            · exact .queued _ hold
            · exact .queue_locked (by rw [hpush, hnew])
          · exact .queued q (by simpa [State.setQueue, hq] using hmem)
      | popped w hmem => exact .popped w hmem
      | filled hp => simp at hp
      | queue_locked hp => simp at hp
  | pop w e datum_queue hplace hqueue =>
      left
      cases he with
      | queued q hmem =>
          by_cases hq : q = w
          · subst hq
            refine .queued q ?_
            rw [hqueue]
            exact List.mem_cons_of_mem _ (by simpa using hmem)
          · exact .queued q (by simpa [State.setQueue, hq] using hmem)
      | popped v hmem =>
          rcases List.mem_append.mp hmem with hold | hnew
          · exact .popped v hold
          · simp only [List.mem_singleton, Popped.mk.injEq] at hnew
            exact .queued w (by rw [hqueue, hnew.2]; simp)
      | filled hp => exact .filled hp
      | queue_locked hp => exact .queue_locked hp
  | wait_taken w semaphore hplace | wait_retry w semaphore hplace
  | worker_lock_queue w hplace | worker_unlock_queue w e hplace =>
      exact .inl (he.of_push_eq (State.setQueue_datum_queue s rfl) rfl rfl)
  | abort | wait_timeout | wait_interrupted | pop_empty | read_outside | update | worker_lock
  | worker_unlock | read =>
      exact .inl (he.of_push_eq (fun _ => rfl) rfl rfl)

theorem writer_step (hs : Step libc s a s') :
    s'.writer = s.writer ∨ ∃ c, s'.writer = (s.writer.new_datum libc c).1 := by
  cases hs with
  | fill c | abort c => exact .inr ⟨c, rfl⟩
  | _ => exact .inl rfl

theorem popped_step (hs : Step libc s a s') : s.popped <+: s'.popped := by
  cases hs with
  | pop => exact List.prefix_append _ _
  | _ => exact List.prefix_refl _

theorem held_step (hs : Step libc s a s') {v : Fin n} {e : Entry}
    (he : (s'.worker v).place.entry? = some e) :
    (s.worker v).place.entry? = some e ∨ ⟨v, e⟩ ∈ s'.popped := by
  cases hs with
  | call | fill | abort | lock_queue | enqueue | post | unlock_queue | leave | wait_retry =>
      exact .inl he
  | wait_taken w | wait_timeout w | wait_interrupted w | worker_lock_queue w | pop_empty w
  | read_outside w | update w =>
      refine .inl (State.place_imp (fun p => p.entry? = some e) rfl (fun h => ?_) he)
      cases h
  | worker_unlock_queue w entry hplace | worker_lock w entry hplace
  | read w entry file_info rrd_template hplace
  | worker_unlock w entry file_info rrd_template hplace =>
      refine .inl (State.place_imp (fun p => p.entry? = some e) rfl (fun h => ?_) he)
      simpa [hplace, WorkerPlace.entry?] using h
  | pop w entry datum_queue hplace hqueue =>
      by_cases hv : v = w
      · subst hv
        simp only [State.setPlace_worker_self, WorkerPlace.entry?, Option.some.injEq] at he
        exact .inr (by simp [he])
      · exact .inl (by simpa [hv] using he)

theorem seen_step (hs : Step libc s a s') {v : Fin n} {found : Entry × RRD_File_info × CStr}
    (hfound : (s'.worker v).place.seen? = some found) :
    (s.worker v).place.seen? = some found ∨
      s.writer.file_info[found.1.datum.filename_id.toNat]? = some found.2.1 ∧
        s.writer.rrd_template[found.1.datum.template_id.toNat]? = some found.2.2 := by
  cases hs with
  | call | fill | abort | lock_queue | enqueue | post | unlock_queue | leave | wait_retry =>
      exact .inl hfound
  | wait_taken w | wait_timeout w | wait_interrupted w | worker_lock_queue w | pop_empty w
  | read_outside w | update w | worker_unlock_queue w | worker_lock w | pop w =>
      refine .inl (State.place_imp (fun p => p.seen? = some found) rfl (fun h => ?_) hfound)
      cases h
  | worker_unlock w entry file_info rrd_template hplace =>
      refine .inl (State.place_imp (fun p => p.seen? = some found) rfl (fun h => ?_) hfound)
      simpa [hplace, WorkerPlace.seen?] using h
  | read w entry file_info rrd_template hplace hfile htemplate =>
      by_cases hv : v = w
      · subst hv
        simp only [State.setPlace_worker_self, WorkerPlace.seen?, Option.some.injEq] at hfound
        rw [← hfound]
        exact .inr ⟨hfile, htemplate⟩
      · exact .inl (by simpa [hv] using hfound)

theorem dataInv_step (h : DataInv s) (hs : Step libc s a s') : DataInv s' := by
  have hdatum := fun c => s.writer.new_datum_spec libc h.tables c
  have htables : s'.writer.WellFormed ∧ s.writer.Extends s'.writer := by
    rcases writer_step hs with hsame | ⟨c, hnew⟩
    · rw [hsame]
      exact ⟨h.tables, .refl s.writer⟩
    · rw [hnew]
      exact ⟨(hdatum c).1, (hdatum c).2.1⟩
  refine h.frame htables.1 htables.2 (fun entry he => ?_) (popped_step hs)
    (fun v e => held_step hs) fun v found => seen_step hs
  rcases hasEntry_step hs he with hold | ⟨-, hnew, -⟩
  · exact .inl hold
  · have hnames := (hdatum entry.call).2.2
    rw [← hnew] at hnames
    exact .inr (hnames entry.datum rfl)

theorem dataInv_reachable (h : Reachable (step libc) (State.init n) s) : DataInv s :=
  h.invariant dataInv_init fun _ _ _ hinv _ hs => dataInv_step hinv (step_sound hs).2

end SnappCollector.Writer
