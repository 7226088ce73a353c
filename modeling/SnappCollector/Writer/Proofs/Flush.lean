import Mathlib.Data.List.Induction
import SnappCollector.Writer.Flush

/-!
# Which file the age test is made on

The test reads the buffer before the name of the datum's file is copied into it, so it is
made on the file of the datum before.
-/

namespace SnappCollector.Writer

open CLib

/-! ## One round -/

namespace Taken

variable {d : Taken} {s : WorkerFiles}

def set_by_age (d : Taken) (s : WorkerFiles) : Bool := d.age_test s.filename && d.updated

/-- The last update of the datum's own file is long ago, and the file was updated now. -/
def stale (d : Taken) : Bool := d.age_test d.copied && d.updated

@[simp] theorem filename_round : (d.round s).filename = d.copied := by
  unfold round
  dsimp only
  split
  · rfl
  · split
    · rfl
    · rfl

@[simp] theorem synced_round : (d.round s).synced = s.synced := by
  unfold round
  dsimp only
  split
  · rfl
  · split
    · rfl
    · rfl

theorem to_be_flushed_round : (d.round s).to_be_flushed =
    if d.set_by_age s || d.selected && d.updated then d.copied else s.to_be_flushed := by
  unfold round set_by_age
  cases d.updated with
  | false => simp
  | true => simp only [Bool.true_eq_false, if_false, Bool.and_true]; split <;> rfl

end Taken

/-! ## Whole runs -/

def Round.taken : Round → Option Taken
  | .timeout => none
  | .datum d => some d

/-- The file of the last datum taken, or what the stack held. -/
def last_copied (stack : CStr) (rounds : List Round) : CStr :=
  ((rounds.filterMap Round.taken).getLast?.map Taken.copied).getD stack

section

variable {stack : CStr} {rounds : List Round}

theorem files_after_concat (round : Round) :
    files_after stack (rounds ++ [round]) = Round.run (files_after stack rounds) round := by
  rw [files_after, List.foldl_append]
  rfl

theorem last_copied_timeout :
    last_copied stack (rounds ++ [.timeout]) = last_copied stack rounds := by
  simp [last_copied, Round.taken]

theorem last_copied_datum (d : Taken) : last_copied stack (rounds ++ [.datum d]) = d.copied := by
  simp [last_copied, Round.taken]

theorem filename_files_after : (files_after stack rounds).filename = last_copied stack rounds := by
  induction rounds using List.reverseRecOn with
  | nil => rfl
  | append_singleton rounds round ih =>
      rw [files_after_concat]
      cases round with
      | timeout => rw [last_copied_timeout, ← ih, Round.run]
      | datum d => rw [last_copied_datum, Round.run, Taken.filename_round]

def Written (rounds : List Round) (file : CStr) : Prop :=
  ∃ d, .datum d ∈ rounds ∧ d.updated = true ∧ d.copied = file

theorem Written.concat {file : CStr} (h : Written rounds file) (round : Round) :
    Written (rounds ++ [round]) file := by
  obtain ⟨d, hd, hwritten⟩ := h
  exact ⟨d, List.mem_append_left _ hd, hwritten⟩

/-- Only files that were written are remembered and flushed. -/
theorem written_files_after :
    ((files_after stack rounds).to_be_flushed = [] ∨
      Written rounds (files_after stack rounds).to_be_flushed) ∧
    ∀ file ∈ (files_after stack rounds).synced, Written rounds file := by
  induction rounds using List.reverseRecOn with
  | nil => exact ⟨.inl rfl, fun _ hfile => absurd hfile List.not_mem_nil⟩
  | append_singleton rounds round ih =>
      obtain ⟨hflush, hsynced⟩ := ih
      rw [files_after_concat]
      cases round with
      | timeout =>
          refine ⟨.inl rfl, fun file hfile => Written.concat ?_ _⟩
          rw [Round.run] at hfile
          dsimp only at hfile
          split at hfile
          · exact hsynced file hfile
          · rename_i hne
            rcases List.mem_append.mp hfile with hold | hlast
            · exact hsynced file hold
            · rw [List.mem_singleton.mp hlast]
              exact hflush.resolve_left hne
      | datum d =>
          rw [Round.run, Taken.synced_round, Taken.to_be_flushed_round]
          refine ⟨?_, fun file hfile => (hsynced file hfile).concat _⟩
          split
          · rename_i hset
            rw [Taken.set_by_age, ← Bool.and_or_distrib_right, Bool.and_eq_true] at hset
            exact .inr ⟨d, List.mem_append_right _ (List.mem_singleton_self _), hset.2, rfl⟩
          · exact hflush.imp_right fun hwritten => hwritten.concat _

/-- In every round with a datum the age test flushes the datum's own file exactly if that
file is stale. -/
def FlushesExamined (stack : CStr) (rounds : List Round) : Prop :=
  ∀ before d after, rounds = before ++ .datum d :: after →
    d.set_by_age (files_after stack before) = d.stale

/-- At each datum that is written, the file of the datum before and its own are both long
without an update or both not. -/
def SameAge (stack : CStr) (rounds : List Round) : Prop :=
  ∀ before d after, rounds = before ++ .datum d :: after → d.updated = true →
    d.age_test (last_copied stack before) = d.age_test d.copied

end

theorem flushes_examined_iff (stack : CStr) (rounds : List Round) :
    FlushesExamined stack rounds ↔ SameAge stack rounds := by
  unfold FlushesExamined SameAge Taken.set_by_age Taken.stale
  simp only [filename_files_after]
  constructor
  · intro hall before d after hrounds hupdated
    have hset := hall before d after hrounds
    rwa [hupdated, Bool.and_true, Bool.and_true] at hset
  · intro hall before d after hrounds
    cases hupdated : d.updated with
    | false => rw [Bool.and_false, Bool.and_false]
    | true => rw [hall before d after hrounds hupdated]

def taken_at_10000 (filename : String) : Taken where
  filename := filename.toList
  stack := []
  rrd_last_r file := if file = "b.rrd".toList then 1000 else 9700
  time := 10000
  selected := false
  updated := true

theorem stale_file_not_flushed :
    ¬∀ (stack : CStr) (rounds : List Round), FlushesExamined stack rounds := by
  intro hall
  have hset := hall [] [.datum (taken_at_10000 "a.rrd"), .datum (taken_at_10000 "b.rrd")]
    [.datum (taken_at_10000 "a.rrd")] _ [] rfl
  exact absurd hset (by decide)

end SnappCollector.Writer
