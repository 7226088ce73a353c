import SnappCollector.Collection.GetCollect
import SnappCollector.Data.Loops
import SnappCollector.Writer.Proofs.Values

/-!
# Unknown values on their way to the RRD file

A missing instance becomes `NAN`, which the writer reads as a NaN and formats as
unknown.  An unusable value becomes `U`, which no conversion reads: the writer
stores the number 0 for it.  All of this holds if the writer converts the values.
-/

namespace SnappCollector.Collection

open CLib Data Writer

def Cleaned (value : CStr) : Prop :=
  (∃ n < 2 ^ 64, value = dec n) ∨ value = "U".toList ∨ value = "NAN".toList

theorem Cleaned.word {value : CStr} (h : Cleaned value) :
    value ≠ [] ∧ ':' ∉ value ∧ value.length ≤ 20 := by
  rcases h with ⟨n, hn, rfl⟩ | rfl | rfl
  · exact ⟨dec_ne_nil n, not_mem_dec (by decide) n,
      length_dec_le (by decide) (hn.trans (by decide))⟩
  · decide
  · decide

end SnappCollector.Collection
