import SnappCollector.Config.LoadTables
import SnappCollector.Config.Proofs.Pages
import SnappCollector.Config.Proofs.Rows

/-!
# Loading page by page

The pages of a query are the slices of one list of rows.  Whatever the limit, the
loop ends and leaves what one block over the whole list leaves: the rows grouped
by class and host.
-/

namespace SnappCollector.Config

open CLib Collection Data

section Paging

variable {db : OID_mapping_sequence_db} {table : Host_Info_Table} {rows : List Row}

theorem load_rows_of_loaded (hsorted : SortedRows rows)
    (hknown : ∀ row ∈ rows, KnownRow db table row) {done page : List Row} {s : Loading}
    (hloaded : Loaded table done s) (hpage : done ++ page <+: rows) :
    ∃ s', page.foldlM (load_row db) s = .ok s' ∧ Loaded table (done ++ page) s' :=
  foldlM_ok hloaded hpage (loaded_step hsorted hknown)

theorem load_rows_from_start (hsorted : SortedRows rows)
    (hknown : ∀ row ∈ rows, KnownRow db table row) :
    ∃ s, rows.foldlM (load_row db) (Loading.start table) = .ok s ∧ Loaded table rows s :=
  load_rows_of_loaded hsorted hknown (loaded_start table) (List.prefix_refl rows)

/-- Whatever the limit, loading page by page ends with what one block over all rows
gives, and its classes are the rows grouped by class and host. -/
theorem load_pages_eq_load_all (hsorted : SortedRows rows)
    (hknown : ∀ row ∈ rows, KnownRow db table row) {limit : Nat} (hlimit : 1 ≤ limit)
    {query : Nat → Nat → Option (List Row)}
    (hquery : ∀ offset, query limit offset = some ((rows.drop offset).take limit)) :
    ∃ s, load_collection_class_block db (fun _ _ => some rows) rows.length 0
          (Loading.start table) = .ok (rows.length, s) ∧
      (∀ fuel, rows.length / limit < fuel →
        load_blocks db query limit fuel 0 (Loading.start table) = some (.ok s)) ∧
      s.collection_class = grouped table rows := by
  obtain ⟨s, hrows, hloaded⟩ := load_rows_from_start hsorted hknown
  have hend := atEnd_start table
  refine ⟨s, ?_, fun fuel hfuel => ?_, hloaded.classes⟩
  · rw [load_block_eq hend rfl, hrows, ok_bind]
  · have hload := load_blocks_of_rows (i := 0) hlimit (fun i => hquery (i * limit)) hend
      (by simpa using hrows) (by simpa using hfuel)
    rwa [Nat.zero_mul] at hload

theorem load_collection_classes_eq (hsorted : SortedRows rows)
    (hknown : ∀ row ∈ rows, KnownRow db table row) {query : Nat → Nat → Option (List Row)}
    (hquery : ∀ offset, query row_limit offset = some ((rows.drop offset).take row_limit)) :
    ∃ s, (∀ fuel, rows.length / row_limit < fuel →
        load_collection_classes db query fuel table = some (.ok s)) ∧
      s.collection_class = grouped table rows := by
  obtain ⟨s, hrows, hloaded⟩ := load_rows_from_start hsorted hknown
  refine ⟨s, fun fuel hfuel => ?_, hloaded.classes⟩
  have hload := load_blocks_of_rows (i := 0) (by decide) (fun i => hquery (i * row_limit))
    (atEnd_start table) (by simpa using hrows) (by simpa using hfuel)
  rwa [Nat.zero_mul] at hload

end Paging

/-! ## Three rows on pages of two -/

def knownHosts : Host_Info_Table where
  host := [⟨7, "10.0.0.1".toList, "public".toList, 0, ∅⟩]
  db_id_to_index := (∅ : AList fun _ : Int32 => UInt32).insert 7 0
  index_lt {db_id i} h := by
    by_cases hid : db_id = 7
    · subst hid
      rw [AList.lookup_insert] at h
      cases h
      decide
    · rw [AList.lookup_insert_ne hid] at h
      simp at h

def sampleRow (collection_class_id : Int32) (rrdfile : CStr) : Row :=
  ⟨collection_class_id, 60, "traffic".toList, 7, none, rrdfile, "1".toList⟩

def sampleRows : List Row :=
  [sampleRow 1 "a.rrd".toList, sampleRow 1 "b.rrd".toList, sampleRow 2 "c.rrd".toList]

def noSequences : OID_mapping_sequence_db := ⟨[], ∅, OID_mapping_sequence_db.empty.index_lt⟩

def slices (rows : List Row) (limit offset : Nat) : Option (List Row) :=
  some ((rows.drop offset).take limit)

theorem load_three_rows :
    ∃ s, load_collection_class_block noSequences (fun _ _ => some sampleRows) 3 0
          (Loading.start knownHosts) = .ok (3, s) ∧
      (∀ fuel, 1 < fuel → load_blocks noSequences (slices sampleRows) 2 fuel 0
        (Loading.start knownHosts) = some (.ok s)) ∧
      s.collection_class = grouped knownHosts sampleRows := by
  have hsorted : SortedRows sampleRows := by
    unfold SortedRows
    decide
  have hknown : ∀ row ∈ sampleRows, KnownRow noSequences knownHosts row := by
    have hhost : (knownHosts.get_host_for_db_id 7).isSome := by decide
    simp only [sampleRows, List.forall_mem_cons, List.not_mem_nil, false_implies, implies_true,
      and_true]
    refine ⟨?_, ?_, ?_⟩ <;>
      exact ⟨by decide, by decide, hhost, fun _ h => (nomatch h)⟩
  have hquery : ∀ offset, slices sampleRows 2 offset = some ((sampleRows.drop offset).take 2) :=
    fun _ => rfl
  exact load_pages_eq_load_all hsorted hknown (by decide) hquery

end SnappCollector.Config
