import SnappCollector.Writer.Datum

/-!
# The flush of a file

A worker remembers one file to be flushed when its queue stays empty for a while.  It does so
for a file that was not updated for two hours, or now and then at random.  The buffer with
the file name lives across the rounds of the loop.
-/

namespace SnappCollector.Writer

open CLib

/-- A datum that a worker takes, as the flush sees it, and what the calls of its round
give. -/
structure Taken where
  filename : CStr
  /-- what the buffer holds behind a text that fills it -/
  stack : CStr
  rrd_last_r : CStr → Int
  time : Int
  /-- the random selection -/
  selected : Bool
  updated : Bool

inductive Round where
  | timeout
  | datum (d : Taken)

/-- The variables of the worker that live across rounds.  `synced` is history: the files
that `file_datasync` was called for. -/
structure WorkerFiles where
  filename : CStr
  to_be_flushed : CStr
  synced : List CStr
deriving DecidableEq

/-- Before the first datum `filename` is whatever the stack holds. -/
def WorkerFiles.start (stack : CStr) : WorkerFiles := ⟨stack, [], []⟩

namespace Taken

/-- The text in the buffer once the name of the file is copied, which is what is updated. -/
def copied (d : Taken) : CStr := strncpy d.stack d.filename (CONST_STRING_SIZE - 1)

/-- The test on the last update of the file in the buffer. -/
def age_test (d : Taken) (filename : CStr) : Bool :=
  d.rrd_last_r filename + 7200 < d.time && d.rrd_last_r filename ≠ 0

def round (d : Taken) (s : WorkerFiles) : WorkerFiles :=
  -- the test comes before the name of this file is copied
  let require_flush := d.age_test s.filename || d.selected
  let filename := d.copied
  if d.updated = false then { s with filename }
  else if require_flush then { s with filename, to_be_flushed := filename }
  else { s with filename }

end Taken

def Round.run (s : WorkerFiles) : Round → WorkerFiles
  | .timeout =>
      { s with
        to_be_flushed := []
        synced := if s.to_be_flushed = [] then s.synced else s.synced ++ [s.to_be_flushed] }
  | .datum d => d.round s

def files_after (stack : CStr) (rounds : List Round) : WorkerFiles :=
  rounds.foldl Round.run (.start stack)

end SnappCollector.Writer
