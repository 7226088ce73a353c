import SnappCollector.Writer.Proofs.Names

/-!
# The values that a datum claims

`num_ds` comes from `string_to_long_doubles`, which returns -1 for too many values.
The field is unsigned, so the assertion that should catch the error lets it pass.
-/

namespace SnappCollector.Writer

open CLib Machine

variable {libc : Libc} (w : RRD_Writer)

/-! ## What the worker reads -/

theorem value_str_loop_isSome_iff (ds : List CFloat) (left i : Nat) (acc : CStr) :
    (value_str_loop libc ds left i acc).isSome ↔ left = 0 ∨ i + left ≤ ds.length := by
  induction left generalizing i acc with
  | zero => simp [value_str_loop]
  | succ left ih =>
      rw [value_str_loop]
      cases hread : ds[i]? with
      | none =>
          have hend : ds.length ≤ i := List.getElem?_eq_none_iff.mp hread
          simp only [Option.isSome_none, Bool.false_eq_true, false_iff]
          omega
      | some v =>
          obtain ⟨hi, -⟩ := List.getElem?_eq_some_iff.mp hread
          simp only [ih]
          omega

/-- The worker reads written entries only if no more are claimed than were written. -/
theorem value_str_isSome_iff (datum : RRD_datum) :
    (value_str libc datum).isSome ↔ datum.num_ds.toNat ≤ datum.ds.length := by
  rw [value_str, value_str_loop_isSome_iff]
  omega

def field (libc : Libc) (v : CFloat) : CStr :=
  if v.isnan then "U".toList else dec (v.toULL libc.ullUndefined).toNat

theorem temp_str_eq (libc : Libc) (v : CFloat) : temp_str libc v = ':' :: field libc v := by
  rw [temp_str, field]
  split <;> rfl

theorem not_mem_field (libc : Libc) (v : CFloat) : ':' ∉ field libc v := by
  rw [field]
  split
  · decide
  · exact not_mem_dec (by decide) _

/-- The text of the update that a call leads to, if it does: the process is still alive, and
the worker reads written entries only. -/
def RRD_Writer.update_text (libc : Libc) (w : RRD_Writer) (call : PushCall) : Option CStr :=
  (w.new_datum libc call).2.bind fun datum =>
    if datum.num_ds > 0 then value_str libc datum else none

/-- The update lists the tokens of the text that is converted, and there is none unless these
are at least one and fewer than `MAX_DS_PER_FILE`. -/
theorem update_text_eq_some_iff {call : PushCall} {text : CStr} :
    w.update_text libc call = some text ↔
      ∃ str, call.converted = some str ∧ 1 ≤ (tokens ':' str).length ∧
        (tokens ':' str).length < MAX_DS_PER_FILE ∧
        text = joinWith ':' (dec (call.in_time.toULL libc.ullUndefined).toNat ::
          (tokens ':' str).map fun v => field libc (libc.strtold v)) := by
  rw [RRD_Writer.update_text]
  cases hstart : call.converted with
  | none => simp [w.new_datum_of_wild libc hstart]
  | some str =>
      simp only [Option.some.injEq, exists_eq_left']
      by_cases hfew : (tokens ':' str).length < MAX_DS_PER_FILE
      · obtain ⟨datum, hdatum, htime, hnum, hds⟩ := w.new_datum_of_lt libc hstart hfew
        have hcount : datum.num_ds.toNat = datum.ds.length := by
          rw [hnum, hds, List.length_map]
        have htext := value_str_eq libc hcount (by rw [← hcount, hnum]; exact hfew.le)
        have hfields : datum.ds.map (temp_str libc) =
            ((tokens ':' str).map fun v => field libc (libc.strtold v)).map (':' :: ·) := by
          simp [hds, temp_str_eq]
        rw [htime, hfields, ← joinWith_cons] at htext
        have hpositive : datum.num_ds > 0 ↔ 1 ≤ (tokens ':' str).length := by
          rw [gt_iff_lt, UInt32.lt_iff_toNat_lt, hnum]
          exact Nat.lt_iff_add_one_le
        simp only [hdatum, Option.bind_some, hpositive, htext]
        split_ifs with hsome
        · simp only [hsome, hfew, true_and, Option.some.injEq]
          exact eq_comm
        · simp [hsome]
      · obtain ⟨datum, hdatum, hnum, hds⟩ := w.new_datum_of_ge libc hstart (not_lt.mp hfew)
        have hnone : value_str libc datum = none := by
          rw [← Option.not_isSome_iff_eq_none, value_str_isSome_iff, hnum, hds]
          decide
        simp [hdatum, hnone, hfew]

theorem update_text_eq (w' : RRD_Writer) (call : PushCall) :
    w.update_text libc call = w'.update_text libc call := by
  apply Option.ext
  intro text
  rw [update_text_eq_some_iff, update_text_eq_some_iff]

theorem splitOn_joinWith {sep : Char} {words : List CStr} (hne : words ≠ [])
    (hwords : ∀ word ∈ words, sep ∉ word) : (joinWith sep words).splitOn sep = words := by
  rw [joinWith]
  exact List.splitOn_intercalate sep hwords hne

theorem joinWith_inj {sep : Char} {words words' : List CStr} (hne : words ≠ []) (hne' : words' ≠ [])
    (hwords : ∀ word ∈ words, sep ∉ word) (hwords' : ∀ word ∈ words', sep ∉ word) :
    joinWith sep words = joinWith sep words' ↔ words = words' := by
  refine ⟨fun hsame => ?_, congrArg _⟩
  rw [← splitOn_joinWith hne hwords, hsame, splitOn_joinWith hne' hwords']

theorem not_mem_update (libc : Libc) {time : CStr} (htime : ':' ∉ time) (words : List CStr) :
    ∀ word ∈ time :: words.map (fun v => field libc (libc.strtold v)), ':' ∉ word := by
  intro word hword
  rcases List.mem_cons.mp hword with rfl | hfield
  · exact htime
  · obtain ⟨v, -, rfl⟩ := List.mem_map.mp hfield
    exact not_mem_field libc _

/-! ## What a call puts into the queue -/

structure RRD_datum.Holds (libc : Libc) (datum : RRD_datum) (values : CStr) : Prop where
  count : datum.num_ds.toNat = (tokens ':' values).length
  positive : 1 ≤ datum.num_ds.toNat
  fits : datum.num_ds.toNat ≤ MAX_DS_PER_FILE
  written : datum.num_ds.toNat ≤ datum.ds.length
  formatted : (value_str libc datum).isSome

/-- The call has not ended the process, and if it has a datum for the queue, then one that
holds the values.  A call that reports an error has none. -/
structure State.Sound {n : Nat} (libc : Libc) (call : PushCall) (s : State n) : Prop where
  alive : s.aborted = false
  holds : ∀ datum, s.push = some (call, .filled datum) → datum.Holds libc call.values

/-- The text that is converted has as many tokens as the values: at least one, and fewer than
`MAX_DS_PER_FILE`. -/
structure PushCall.Countable (call : PushCall) (str : CStr) : Prop where
  read : call.converted = some str
  some_value : 1 ≤ (tokens ':' str).length
  few : (tokens ':' str).length < MAX_DS_PER_FILE
  kept : (tokens ':' str).length = (tokens ':' call.values).length

theorem holds_new_datum_iff {call : PushCall} {datum : RRD_datum}
    (hdatum : (w.new_datum libc call).2 = some datum) :
    datum.Holds libc call.values ↔ ∃ str, call.Countable str := by
  cases hstart : call.converted with
  | none => simp [w.new_datum_of_wild libc hstart] at hdatum
  | some str =>
      by_cases hfew : (tokens ':' str).length < MAX_DS_PER_FILE
      · obtain ⟨datum', hsame, -, hnum, hds⟩ := w.new_datum_of_lt libc hstart hfew
        rw [hdatum] at hsame
        cases hsame
        constructor
        · intro hholds
          exact ⟨str, hstart, hnum ▸ hholds.positive, hfew, hnum ▸ hholds.count⟩
        · rintro ⟨str', hread, hsome, -, hkept⟩
          rw [hstart] at hread
          cases hread
          refine ⟨hnum.trans hkept, by rwa [hnum], by rw [hnum]; exact hfew.le, ?_, ?_⟩
          · rw [hnum, hds, List.length_map]
          · rw [value_str_isSome_iff, hnum, hds, List.length_map]
      · obtain ⟨datum', hsame, hnum, -⟩ := w.new_datum_of_ge libc hstart (not_lt.mp hfew)
        rw [hdatum] at hsame
        cases hsame
        refine iff_of_false (fun hholds => ?_) ?_
        · have hfits := hholds.fits
          rw [hnum] at hfits
          exact absurd hfits (by decide)
        · rintro ⟨str', hread, -, hless, -⟩
          rw [hstart] at hread
          cases hread
          exact hfew hless

section

variable {n : Nat} [NeZero n] {s s' : State n} {call : PushCall}

theorem exists_step_entered (halive : s.aborted = false)
    (hpush : s.push = some (call, .entered)) : ∃ s', step libc s .push = some s' := by
  unfold step
  simp only [halive, Bool.false_eq_true, if_false, hpush, Option.bind_some, pushStep]
  cases (s.writer.new_datum libc call).2 with
  | none => exact ⟨_, rfl⟩
  | some datum =>
      dsimp only
      split_ifs
      · exact ⟨_, rfl⟩
      · exact ⟨_, rfl⟩

theorem step_entered (hpush : s.push = some (call, .entered))
    (hstep : step libc s .push = some s') :
    (∃ datum, (s.writer.new_datum libc call).2 = some datum ∧ s'.aborted = false ∧
        s'.push = some (call, .filled datum)) ∨
      (∀ datum, (s.writer.new_datum libc call).2 = some datum → ¬datum.num_ds > 0) ∧
        s'.aborted = true := by
  obtain ⟨halive, hs⟩ := step_sound hstep
  cases hs with
  | fill c datum hpush' hdatum hnum =>
      rw [hpush] at hpush'
      cases hpush'
      exact .inl ⟨datum, hdatum, halive, rfl⟩
  | abort c hpush' hnum =>
      rw [hpush] at hpush'
      cases hpush'
      exact .inr ⟨hnum, rfl⟩
  | lock_queue c datum hpush' | enqueue c datum hpush' | post c hpush' | unlock_queue c hpush'
  | leave c hpush' =>
      rw [hpush] at hpush'
      cases hpush'

/-- A call of `push_data` queues a datum that holds the values, or none, exactly if the
values can be counted. -/
theorem sound_iff_countable (hpush : s.push = some (call, .entered))
    (hstep : step libc s .push = some s') :
    s'.Sound libc call ↔ ∃ str, call.Countable str := by
  rcases step_entered hpush hstep with ⟨datum, hdatum, halive, hfilled⟩ | ⟨hnone, haborted⟩
  · rw [← holds_new_datum_iff s.writer hdatum]
    constructor
    · intro hsound
      exact hsound.holds _ hfilled
    · intro hholds
      refine ⟨halive, fun datum' hdatum' => ?_⟩
      rw [hfilled] at hdatum'
      cases hdatum'
      exact hholds
  · refine iff_of_false (fun hsound => ?_) ?_
    · rw [hsound.alive] at haborted
      cases haborted
    · rintro ⟨str, hread, hsome, hfew, -⟩
      obtain ⟨datum, hdatum, -, hnum, -⟩ := s.writer.new_datum_of_lt libc hread hfew
      apply hnone datum hdatum
      rw [gt_iff_lt, UInt32.lt_iff_toNat_lt, hnum]
      exact hsome

/-- The data that are queued, being pushed or taken by a worker have the update texts of their
calls. -/
def State.HoldsUpdates (libc : Libc) (s : State n) : Prop :=
  ∀ entry, s.HasEntry entry →
    value_str libc entry.datum = RRD_Writer.empty.update_text libc entry.call

omit [NeZero n] in
theorem holdsUpdates_init : (State.init n).HoldsUpdates libc := by
  intro entry hentry
  cases hentry with
  | queued q hmem => simp [State.init] at hmem
  | popped w hmem => simp [State.init] at hmem
  | filled hpush => cases hpush
  | queue_locked hpush => cases hpush

theorem holdsUpdates_step {a : Action n} (h : s.HoldsUpdates libc) (hs : Step libc s a s') :
    s'.HoldsUpdates libc := by
  intro entry hentry
  rcases hasEntry_step hs hentry with hold | ⟨-, hnew, hnum⟩
  · exact h entry hold
  · rw [update_text_eq .empty s.writer, RRD_Writer.update_text, ← hnew, Option.bind_some,
      if_pos hnum]

theorem holdsUpdates_reachable (h : Reachable (step libc) (State.init n) s) :
    s.HoldsUpdates libc :=
  h.invariant holdsUpdates_init fun _ _ _ hinv _ hs => holdsUpdates_step hinv (step_sound hs).2

/-- The data that are queued, being pushed or taken by a worker hold the values of their calls
exactly if these can be counted. -/
def State.HoldsCountable (libc : Libc) (s : State n) : Prop :=
  ∀ entry, s.HasEntry entry →
    (entry.datum.Holds libc entry.call.values ↔ ∃ str, entry.call.Countable str)

omit [NeZero n] in
theorem holdsCountable_init : (State.init n).HoldsCountable libc := by
  intro entry hentry
  cases hentry with
  | queued q hmem => simp [State.init] at hmem
  | popped w hmem => simp [State.init] at hmem
  | filled hpush => cases hpush
  | queue_locked hpush => cases hpush

theorem holdsCountable_step {a : Action n} (h : s.HoldsCountable libc) (hs : Step libc s a s') :
    s'.HoldsCountable libc := by
  intro entry hentry
  rcases hasEntry_step hs hentry with hold | ⟨-, hnew, -⟩
  · exact h entry hold
  · exact holds_new_datum_iff s.writer (by rw [← hnew])

theorem holdsCountable_reachable (h : Reachable (step libc) (State.init n) s) :
    s.HoldsCountable libc :=
  h.invariant holdsCountable_init fun _ _ _ hinv _ hs => holdsCountable_step hinv (step_sound hs).2

end

/-! ## A call whose values are counted -/

def State.entered (call : PushCall) : State 1 :=
  { State.init 1 with lock := some .push, push := some (call, .entered), calls := [call] }

def twoValues : PushCall :=
  ⟨.fin 0, "a.rrd".toList, "a:b".toList, "1:2".toList, [], .null⟩

theorem sound_twoValues :
    ∃ s', step decimalLibc (State.entered twoValues) .push = some s' ∧
      s'.Sound decimalLibc twoValues := by
  obtain ⟨s', hstep⟩ : ∃ s', step decimalLibc (State.entered twoValues) .push = some s' :=
    exists_step_entered rfl rfl
  refine ⟨s', hstep, (sound_iff_countable rfl hstep).mpr ⟨twoValues.local_values, rfl, ?_, ?_, ?_⟩⟩
  · decide +kernel
  · decide +kernel
  · decide +kernel

/-! ## As many values as the array has entries -/

def fullCall : PushCall :=
  ⟨.fin 0, "a.rrd".toList, "a".toList, joinWith ':' (List.replicate 20 "1".toList), [], .null⟩

/-- The datum claims `2 ^ 32 - 1` values and holds 20. -/
theorem overcount_of_fullCall :
    step decimalLibc (State.init 1) (.call fullCall) = some (State.entered fullCall) ∧
      ∃ s' datum, step decimalLibc (State.entered fullCall) .push = some s' ∧
        s'.push = some (fullCall, .filled datum) ∧ datum.num_ds.toNat = 2 ^ 32 - 1 ∧
        datum.ds.length = 20 ∧ value_str decimalLibc datum = none ∧
        ¬s'.Sound decimalLibc fullCall := by
  have hcount : (tokens ':' fullCall.local_values).length = 20 := by decide +kernel
  have hfull : MAX_DS_PER_FILE ≤ (tokens ':' fullCall.local_values).length := by
    rw [hcount]
    decide
  have hread : fullCall.converted = some fullCall.local_values := rfl
  obtain ⟨datum, hdatum, hnum, hds⟩ := RRD_Writer.empty.new_datum_of_ge decimalLibc hread hfull
  obtain ⟨s', hstep⟩ : ∃ s', step decimalLibc (State.entered fullCall) .push = some s' :=
    exists_step_entered rfl rfl
  have hnone : value_str decimalLibc datum = none := by
    rw [← Option.not_isSome_iff_eq_none, value_str_isSome_iff, hnum, hds]
    decide
  rcases step_entered rfl hstep with ⟨datum', hdatum', -, hfilled⟩ | ⟨hnot, -⟩
  · have hsame : datum' = datum := Option.some.inj (hdatum'.symm.trans hdatum)
    rw [hsame] at hfilled
    refine ⟨rfl, s', datum, hstep, hfilled, hnum, hds, hnone, fun hsound => ?_⟩
    have hfits := (hsound.holds _ hfilled).fits
    rw [hnum] at hfits
    exact absurd hfits (by decide)
  · refine absurd ?_ (hnot datum hdatum)
    rw [gt_iff_lt, UInt32.lt_iff_toNat_lt, hnum]
    decide

end SnappCollector.Writer
