import SnappCollector.Writer.Proofs.Names

/-!
# Delivery of the calls on one file

Per file the workers take the data of the `push_data` calls in order, one worker
takes them all, and the names it reads are those of the call, for the first
`2 ^ 32` files and templates.
-/

namespace SnappCollector.Writer

open CLib Data Machine

section Delivery

variable {n : Nat} [NeZero n]

structure Delivered (s : State n) (f : CStr) : Prop where
  order : (s.popped.map (·.entry.call)).filter (·.filename = f) <+:
    s.calls.filter (·.filename = f)
  one_worker : ∃ w, ∀ p ∈ s.popped, p.entry.call.filename = f → p.worker = w
  file : ∀ p ∈ s.popped, p.entry.call.filename = f →
    ((s.writer.file_info[p.entry.datum.filename_id.toNat]?).map (·.filename) = some f ↔
      s.writer.filenames.idxOf f < 2 ^ 32)
  template : ∀ p ∈ s.popped, p.entry.call.filename = f →
    (s.writer.rrd_template[p.entry.datum.template_id.toNat]? = some p.entry.call.in_rrd_template ↔
      s.writer.rrd_template.idxOf p.entry.call.in_rrd_template < 2 ^ 32)
  read : ∀ w entry file_info rrd_template,
    (s.worker w).place.seen? = some (entry, file_info, rrd_template) → entry.call.filename = f →
      (file_info.filename = f ↔ s.writer.filenames.idxOf f < 2 ^ 32) ∧
      (rrd_template = entry.call.in_rrd_template ↔
        s.writer.rrd_template.idxOf entry.call.in_rrd_template < 2 ^ 32)

variable {libc : Libc} {s : State n}

theorem delivered_of_reachable (h : Reachable (step libc) (State.init n) s) (f : CStr) :
    Delivered s f := by
  have hdata := dataInv_reachable h
  have hchannel := (ordered_reachable h).2
  have hnames : ∀ p ∈ s.popped, s.writer.Names p.entry.datum p.entry.call :=
    fun p hp => hdata.names p.entry (.popped p.worker hp)
  refine ⟨?_, ⟨queue_index n f, fun p hp hf => ?_⟩, fun p hp hf => ?_, fun p hp hf => ?_,
    fun w entry file_info rrd_template hseen hf => ?_⟩
  · have hprefix := hchannel.received_prefix f
    simpa [State.channel, Channel.on, Function.comp_def] using hprefix
  · have hmem : (p.worker, p.entry.call) ∈ s.channel.received :=
      List.mem_map.mpr ⟨p, hp, rfl⟩
    exact hchannel.receiver hmem hf
  · rw [← hf]
    exact (hnames p hp).file_info_iff hdata.tables
  · exact (hnames p hp).rrd_template_iff hdata.tables
  · obtain ⟨hfile, htemplate⟩ := hdata.seen w entry file_info rrd_template hseen
    have hentry : (s.worker w).place.entry? = some entry := by
      cases hplace : (s.worker w).place <;>
        simp_all [WorkerPlace.seen?, WorkerPlace.entry?]
    have hnamed := hnames _ (hdata.held w entry hentry)
    have hfile_iff := hnamed.file_info_iff hdata.tables
    have htemplate_iff := hnamed.rrd_template_iff hdata.tables
    rw [hfile, hf] at hfile_iff
    rw [htemplate] at htemplate_iff
    simpa using And.intro hfile_iff htemplate_iff

end Delivery

/-! ## One queue, one call after the other -/

def idle (writer : RRD_Writer) (calls : List PushCall) (popped : List (Popped 1))
    (updates : List Update) : State 1 :=
  { State.init 1 with writer, calls, popped, updates }

def roundTrip (c : PushCall) : List (Action 1) :=
  [.call c, .push, .push, .push, .push, .push, .push] ++
    [.wait 0 .success, .worker 0, .worker 0, .worker 0, .worker 0, .worker 0, .worker 0,
      .update 0 []]

theorem update_fin_one {α : Type*} (f : Fin 1 → α) (x : α) :
    Function.update f 0 x = fun _ => x := by
  funext i
  rw [Subsingleton.elim i 0, Function.update_self]

def pushed (writer : RRD_Writer) (entry : Entry) (calls : List PushCall)
    (popped : List (Popped 1)) (updates : List Update) : State 1 :=
  { idle writer calls popped updates with data_queue := fun _ => ⟨[entry], 1, none⟩ }

theorem run_push (libc : Libc) {w w' : RRD_Writer} {datum : RRD_datum} (c : PushCall)
    (hdatum : w.new_datum libc c = (w', some datum)) (hnum : datum.num_ds > 0)
    (calls : List PushCall) (popped : List (Popped 1)) (updates : List Update) :
    run (step libc) (idle w calls popped updates)
        [.call c, .push, .push, .push, .push, .push, .push] =
      some (pushed w' ⟨datum, c⟩ (calls ++ [c]) popped updates) := by
  have hindex : queue_index 1 c.filename = 0 := Subsingleton.elim _ _
  simp only [idle, pushed, State.init, run_cons, run_nil, step, pushStep, hdatum, hindex, hnum,
    State.setQueue, update_fin_one, List.nil_append, Option.bind_some, Bool.false_eq_true,
    if_true, if_false]

theorem run_take (libc : Libc) {w : RRD_Writer} (entry : Entry) {file_info : RRD_File_info}
    {rrd_template : CStr}
    (hfile : w.file_info[entry.datum.filename_id.toNat]? = some file_info)
    (htemplate : w.rrd_template[entry.datum.template_id.toNat]? = some rrd_template)
    (calls : List PushCall) (popped : List (Popped 1)) (updates : List Update) :
    ∃ updates', run (step libc) (pushed w entry calls popped updates)
        [.wait 0 .success, .worker 0, .worker 0, .worker 0, .worker 0, .worker 0, .worker 0,
          .update 0 []] =
      some (idle w calls (popped ++ [⟨0, entry⟩]) updates') := by
  refine ⟨?_, ?_⟩
  rotate_left
  · simp only [idle, pushed, State.init, run_cons, run_nil, step, waitStep, workerStep, updateStep,
      State.setQueue, State.setPlace, update_fin_one, hfile, htemplate, Option.bind_some,
      Bool.false_eq_true, if_true, if_false, reduceCtorEq]
    rfl

theorem run_roundTrip (libc : Libc) {w : RRD_Writer} (hw : w.WellFormed) (c : PushCall)
    {datum : RRD_datum} (hdatum : (w.new_datum libc c).2 = some datum) (hnum : datum.num_ds > 0)
    (calls : List PushCall) (popped : List (Popped 1)) (updates : List Update) :
    ∃ updates', run (step libc) (idle w calls popped updates) (roundTrip c) =
      some (idle (w.new_datum libc c).1 (calls ++ [c]) (popped ++ [⟨0, datum, c⟩]) updates') := by
  obtain ⟨-, -, hnames⟩ := w.new_datum_spec libc hw c
  have hbuilt : w.new_datum libc c = ((w.new_datum libc c).1, some datum) := by rw [← hdatum]
  obtain ⟨hfile, htemplate⟩ := (hnames datum hdatum).in_bounds
  obtain ⟨updates', htake⟩ := run_take libc ⟨datum, c⟩ (List.getElem?_eq_getElem hfile)
    (List.getElem?_eq_getElem htemplate) (calls ++ [c]) popped updates
  refine ⟨updates', ?_⟩
  rw [roundTrip, run_append, run_push libc c hbuilt hnum]
  exact htake

def numberedCall (i : Nat) : PushCall :=
  ⟨.ofNat 0, dec i, "ds".toList, "1".toList, [], .null⟩

theorem num_ds_numberedCall (w : RRD_Writer) (i : Nat) :
    ∃ datum, (w.new_datum decimalLibc (numberedCall i)).2 = some datum ∧ datum.num_ds > 0 := by
  have htokens : tokens ':' (numberedCall i).local_values = ["1".toList] := by
    rw [PushCall.local_values_of_lt (by simp [numberedCall, CONST_STRING_SIZE])]
    rfl
  have hone : (tokens ':' (numberedCall i).local_values).length = 1 := by rw [htokens]; rfl
  have hstart : (numberedCall i).converted = some (numberedCall i).local_values := rfl
  obtain ⟨datum, hdatum, -, hnum, -⟩ :=
    w.new_datum_of_lt decimalLibc hstart (by rw [hone]; decide)
  refine ⟨datum, hdatum, ?_⟩
  rw [gt_iff_lt, UInt32.lt_iff_toNat_lt, hnum, hone]
  decide

theorem filenames_new_datum (libc : Libc) {w : RRD_Writer} (hw : w.WellFormed) {c : PushCall}
    (hnew : c.filename ∉ w.filenames) :
    (w.new_datum libc c).1.filenames = w.filenames ++ [c.filename] := by
  have hlookup := hw.files.lookup_eq_none_iff.mpr hnew
  have hfiles : (w.filename_transform c.filename).1.filenames = w.filenames ++ [c.filename] := by
    simp [RRD_Writer.filename_transform, RRD_Writer.filenames, hlookup]
  obtain ⟨hwf, -⟩ := w.filename_transform_spec hw c.filename
  obtain ⟨-, -, hsame, -⟩ := RRD_Writer.rrd_template_transform_spec hwf c.in_rrd_template
  rw [← hfiles]
  simp only [RRD_Writer.new_datum, RRD_Writer.filenames]
  rw [hsame]

/-- After `m` calls on the files `0, 1, …` the table holds their names in order. -/
theorem reachable_numbered (m : Nat) :
    ∃ w calls popped updates,
      Reachable (step decimalLibc) (State.init 1) (idle w calls popped updates) ∧
      w.filenames = (List.range m).map dec ∧
      calls = (List.range m).map numberedCall := by
  induction m with
  | zero => exact ⟨.empty, [], [], [], .start, rfl, rfl⟩
  | succ m ih =>
      obtain ⟨w, calls, popped, updates, hreach, hfiles, hcalls⟩ := ih
      have hw : w.WellFormed := (dataInv_reachable hreach).tables
      have hnew : (numberedCall m).filename ∉ w.filenames := by
        rw [hfiles]
        intro hmem
        obtain ⟨i, hi, heq⟩ := List.mem_map.mp hmem
        have him : i = m := dec_injective heq
        rw [him] at hi
        simp at hi
      obtain ⟨datum, hdatum, hnum⟩ := num_ds_numberedCall w m
      obtain ⟨updates', hrun⟩ :=
        run_roundTrip decimalLibc hw (numberedCall m) hdatum hnum calls popped updates
      refine ⟨_, _, _, _, hreach.trans (Reachable.of_run hrun), ?_, ?_⟩
      · rw [filenames_new_datum decimalLibc hw hnew, hfiles, List.range_succ, List.map_append]
        rfl
      · rw [hcalls, List.range_succ, List.map_append]
        rfl

theorem delivered_numbered_zero :
    ∃ s : State 1, Reachable (step decimalLibc) (State.init 1) s ∧
      s.calls = [numberedCall 0] ∧ Delivered s (dec 0) := by
  obtain ⟨w, calls, popped, updates, hreach, -, hcalls⟩ := reachable_numbered 1
  exact ⟨_, hreach, hcalls, delivered_of_reachable hreach (dec 0)⟩

/-- With `2 ^ 32 + 1` distinct files the last one's data lead to another file. -/
theorem wrong_file_after_wrap :
    ∃ s : State 1, Reachable (step decimalLibc) (State.init 1) s ∧
      (∀ c ∈ s.calls, (tokens ':' c.values).length = 1) ∧
      ∃ p ∈ s.popped,
        (s.writer.file_info[p.entry.datum.filename_id.toNat]?).map (·.filename) ≠
          some p.entry.call.filename := by
  obtain ⟨w, calls, popped, updates, hreach, hfiles, hcalls⟩ := reachable_numbered (2 ^ 32)
  have hw : w.WellFormed := (dataInv_reachable hreach).tables
  have hnew : (numberedCall (2 ^ 32)).filename ∉ w.filenames := by
    rw [hfiles]
    intro hmem
    obtain ⟨i, hi, heq⟩ := List.mem_map.mp hmem
    have hlast : i = 2 ^ 32 := dec_injective heq
    rw [hlast] at hi
    exact absurd (List.mem_range.mp hi) (Nat.lt_irrefl _)
  obtain ⟨datum, hdatum, hnum⟩ := num_ds_numberedCall w (2 ^ 32)
  obtain ⟨updates', hrun⟩ :=
    run_roundTrip decimalLibc hw (numberedCall (2 ^ 32)) hdatum hnum calls popped updates
  obtain ⟨hwf, -, hnamed⟩ := w.new_datum_spec decimalLibc hw (numberedCall (2 ^ 32))
  refine ⟨_, hreach.trans (Reachable.of_run hrun), fun c hc => ?_, _,
    List.mem_append_right _ (List.mem_singleton_self _), ?_⟩
  · rcases List.mem_append.mp hc with hold | hlast
    · rw [hcalls] at hold
      obtain ⟨i, -, rfl⟩ := List.mem_map.mp hold
      rfl
    · rw [List.mem_singleton.mp hlast]
      rfl
  · intro hfound
    have hlt := ((hnamed datum hdatum).file_info_iff hwf).mp hfound
    rw [filenames_new_datum decimalLibc hw hnew, List.idxOf_append_of_notMem hnew, hfiles] at hlt
    simp at hlt

end SnappCollector.Writer
