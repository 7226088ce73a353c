import Mathlib.Data.UInt

/-!
# The load of the writer

The thread of `writer_status_thread` adds up the lengths of all queues every five seconds and
feeds the sum to two moving averages in 64-bit integers.
-/

namespace SnappCollector.Writer

/-! ## For the load calculations -/

def FSHIFT : UInt64 := 11

def FIXED_1 : UInt64 := 1 <<< FSHIFT

/-- 1/exp(5sec/1min) as fixed-point. -/
def EXP_1 : UInt64 := 1884

/-- 1/exp(5sec/5min). -/
def EXP_5 : UInt64 := 2014

/-- The value that the macro assigns to `load`. -/
def CALC_LOAD (load exp n : UInt64) : UInt64 :=
  (load * exp + n * (FIXED_1 - exp)) >>> FSHIFT

/-! ## The statistics -/

structure Writer_status where
  avg_queue_len_1min : UInt64
  avg_queue_len_5min : UInt64
deriving DecidableEq

def avg_queue_len (queue_sizes : List Nat) : UInt64 :=
  queue_sizes.foldl (fun sum size => sum + UInt64.ofNat size) 0

def calculate_new_stats (queue_sizes : List Nat) (local_status : Writer_status) :
    Writer_status where
  avg_queue_len_1min := CALC_LOAD local_status.avg_queue_len_1min EXP_1 (avg_queue_len queue_sizes)
  avg_queue_len_5min := CALC_LOAD local_status.avg_queue_len_5min EXP_5 (avg_queue_len queue_sizes)

def status_after (queue_sizes : Nat → List Nat) (local_status : Writer_status) :
    Nat → Writer_status
  | 0 => local_status
  | k + 1 => calculate_new_stats (queue_sizes k) (status_after queue_sizes local_status k)

end SnappCollector.Writer
