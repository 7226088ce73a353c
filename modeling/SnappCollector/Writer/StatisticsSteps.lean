import SnappCollector.Writer.Statistics

/-!
# What a step of the writer with its statistics can do

`StatsStep` lists the transitions one by one, with their guards; `stepWithStats_sound` connects
it to the step function.
-/

namespace SnappCollector.Writer

open CLib

variable {n m : Nat}

inductive StatsStep [NeZero n] (libc : Libc) (s : StatsState n m) :
    StatsAction n m → StatsState n m → Prop where
  | writer (a : Action n) (writer : State n)
      (hfree : ∀ q, s.writer.locks a = some q → s.stats.holds ≠ some q.val)
      (hstep : step libc s.writer a = some writer) : StatsStep libc s (.writer a) { s with writer }
  | begin (hplace : s.stats = .sleeping) :
      StatsStep libc s .stats { s with stats := .queue 0 0, pass := ⟨[], s.writer, s.writer⟩ }
  | lock (i : Nat) (hi : i < n) (avg_queue_len : UInt64) (hplace : s.stats = .queue i avg_queue_len)
      (hfree : (s.writer.data_queue ⟨i, hi⟩).lock = none) :
      StatsStep libc s .stats { s with stats := .size i avg_queue_len }
  | loop_end (i : Nat) (hi : ¬i < n) (avg_queue_len : UInt64)
      (hplace : s.stats = .queue i avg_queue_len) :
      StatsStep libc s .stats
        { s with stats := .status_lock avg_queue_len, pass := { s.pass with ended := s.writer } }
  | size (i : Nat) (hi : i < n) (avg_queue_len : UInt64)
      (hplace : s.stats = .size i avg_queue_len) :
      StatsStep libc s .stats
        { s with
          stats := .queue_unlock i (avg_queue_len +
            UInt64.ofNat (s.writer.data_queue ⟨i, hi⟩).datum_queue.length)
          pass := { s.pass with
            sizes := s.pass.sizes ++ [(s.writer.data_queue ⟨i, hi⟩).datum_queue.length] } }
  | unlock (i : Nat) (avg_queue_len : UInt64) (hplace : s.stats = .queue_unlock i avg_queue_len) :
      StatsStep libc s .stats { s with stats := .queue (i + 1) avg_queue_len }
  | status_lock (avg_queue_len : UInt64) (hplace : s.stats = .status_lock avg_queue_len)
      (hfree : s.status_lock = none) :
      StatsStep libc s .stats { s with status_lock := some .stats, stats := .assign 0 avg_queue_len }
  | assign (done : Nat) (avg_queue_len : UInt64) (f : Writer_status → Writer_status)
      (hplace : s.stats = .assign done avg_queue_len)
      (hassign : (load_assignments avg_queue_len)[done]? = some f) :
      StatsStep libc s .stats
        { s with local_status := f s.local_status, stats := .assign (done + 1) avg_queue_len }
  | assigned (done : Nat) (avg_queue_len : UInt64) (hplace : s.stats = .assign done avg_queue_len)
      (hassign : (load_assignments avg_queue_len)[done]? = none) :
      StatsStep libc s .stats
        { s with stats := .status_unlock, samples := s.samples ++ [s.pass] }
  | status_unlock (hplace : s.stats = .status_unlock) :
      StatsStep libc s .stats { s with status_lock := none, stats := .sleeping }
  | read_call (j : Fin m) (hplace : s.reader j = .idle) :
      StatsStep libc s (.reader j)
        { s with reader := Function.update s.reader j .status_lock }
  | read_lock (j : Fin m) (hplace : s.reader j = .status_lock) (hfree : s.status_lock = none) :
      StatsStep libc s (.reader j)
        { s with
          status_lock := some (.reader j), reader := Function.update s.reader j .copy_1min }
  | copy_1min (j : Fin m) (hplace : s.reader j = .copy_1min) :
      StatsStep libc s (.reader j)
        { s with
          reader := Function.update s.reader j (.copy_5min s.local_status.avg_queue_len_1min) }
  | copy_5min (j : Fin m) (avg_queue_len_1min : UInt64)
      (hplace : s.reader j = .copy_5min avg_queue_len_1min) :
      StatsStep libc s (.reader j)
        { s with
          reader := Function.update s.reader j
            (.status_unlock ⟨avg_queue_len_1min, s.local_status.avg_queue_len_5min⟩) }
  | read_unlock (j : Fin m) (writer_status : Writer_status)
      (hplace : s.reader j = .status_unlock writer_status) :
      StatsStep libc s (.reader j)
        { s with
          status_lock := none
          reader := Function.update s.reader j .idle
          reported := s.reported ++ [writer_status] }

section Sound

variable [NeZero n] {libc : Libc} {s s' : StatsState n m} {a : StatsAction n m}

theorem statsStep_sound {place : StatsPlace} (hplace : s.stats = place)
    (h : statsStep s place = some s') : StatsStep libc s .stats s' := by
  cases place with
  | sleeping =>
      cases h
      exact .begin hplace
  | queue i avg_queue_len =>
      simp only [statsStep] at h
      split at h
      next hi =>
        split at h
        · cases h
        · cases h
          exact .lock i hi _ hplace ‹_›
      next hi =>
        cases h
        exact .loop_end i hi _ hplace
  | size i avg_queue_len =>
      simp only [statsStep] at h
      split at h
      · cases h
        exact .size i ‹_› _ hplace
      · cases h
  | queue_unlock i avg_queue_len =>
      cases h
      exact .unlock i _ hplace
  | status_lock avg_queue_len =>
      simp only [statsStep] at h
      split at h
      · cases h
      · cases h
        exact .status_lock _ hplace ‹_›
  | assign done avg_queue_len =>
      simp only [statsStep] at h
      split at h <;> cases h
      · exact .assign done _ _ hplace ‹_›
      · exact .assigned done _ hplace ‹_›
  | status_unlock =>
      cases h
      exact .status_unlock hplace

theorem readerStep_sound {j : Fin m} {place : ReaderPlace} (hplace : s.reader j = place)
    (h : readerStep s j place = some s') : StatsStep libc s (.reader j) s' := by
  cases place with
  | idle =>
      cases h
      exact .read_call j hplace
  | status_lock =>
      simp only [readerStep] at h
      split at h
      · cases h
      · cases h
        exact .read_lock j hplace ‹_›
  | copy_1min =>
      cases h
      exact .copy_1min j hplace
  | copy_5min avg_queue_len_1min =>
      cases h
      exact .copy_5min j _ hplace
  | status_unlock writer_status =>
      cases h
      exact .read_unlock j _ hplace

theorem stepWithStats_sound (h : stepWithStats libc s a = some s') : StatsStep libc s a s' := by
  cases a with
  | writer a =>
      simp only [stepWithStats] at h
      split at h
      · cases h
      next hfree =>
        obtain ⟨writer, hstep, rfl⟩ := Option.map_eq_some_iff.mp h
        refine .writer a writer (fun q hq hholds => hfree ?_) hstep
        simp [hq, hholds]
  | stats => exact statsStep_sound rfl h
  | reader j => exact readerStep_sound rfl h

end Sound

end SnappCollector.Writer
