import SnappCollector.Config.Proofs.Paging
import SnappCollector.Config.Proofs.Suffixes

/-!
# The mapping of a loaded configuration

What was loaded from known rows meets the assertion of the suffix mapping, and a
collection comes with an empty suffix.
-/

namespace SnappCollector.Config

open CLib Collection Data

variable {db : OID_mapping_sequence_db} {table : Host_Info_Table} {rows : List Row}

theorem rows_of_entry {cls : SQL_Collection_Class} {h : SQL_Host} (hcls : cls ∈ grouped table rows)
    (hh : h ∈ cls.host) : ∃ row ∈ rows, ∃ sub, sub ⊆ rows ∧ h = host_entry table row.host_id sub := by
  obtain ⟨id, -, rfl⟩ := List.mem_map.mp hcls
  obtain ⟨host_id, hmem, rfl⟩ := List.mem_map.mp hh
  obtain ⟨row, hrow, rfl⟩ := List.mem_map.mp (mem_keys.mp hmem)
  refine ⟨row, List.mem_of_mem_filter hrow, _, ?_, rfl⟩
  intro row' hrow'
  exact List.mem_of_mem_filter (List.mem_of_mem_filter hrow')

theorem hostKnown_of_known {hosts : Host_Info_Table} (hsame : SameHosts hosts table)
    (hknown : ∀ row ∈ rows, KnownRow db table row) {row : Row} (hrow : row ∈ rows)
    {sub : List Row} (hsub : sub ⊆ rows) :
    HostKnown db hosts.host (host_entry table row.host_id sub) := by
  obtain ⟨i, hi⟩ := Option.isSome_iff_exists.mp (hknown row hrow).host
  have hlt : i < hosts.host.length := Host_Info_Table.lt_of_get_host ((hsame _).trans hi)
  refine ⟨hosts.host[i], ?_, ?_⟩
  · rw [host_entry, hi]
    exact List.getElem?_eq_getElem hlt
  · intro _ c hc hid
    obtain ⟨row', hrow', rfl⟩ := List.mem_map.mp hc
    cases hmapping : row'.oid_suffix_mapping_id with
    | none => simp [collection_of, hmapping] at hid
    | some id => exact (hknown row' (hsub hrow')).sequence_of_isSome hmapping

theorem map_loaded_isSome {s : Loading} (hknown : ∀ row ∈ rows, KnownRow db table row)
    (hloaded : Loaded table rows s) :
    (map_collection_suffixes ⟨s.host_table, db, s.collection_class⟩).isSome := by
  apply map_collection_suffixes_isSome
  intro cls hcls h hh
  have hgrouped : cls ∈ grouped table rows := hloaded.classes ▸ hcls
  obtain ⟨row, hrow, sub, hsub, rfl⟩ := rows_of_entry hgrouped hh
  exact hostKnown_of_known hloaded.same_hosts hknown hrow hsub

/-- A loaded collection is ambiguous in two cases: its host has no tables and it has
a suffix but no sequence, or its sequence leads to the empty text. -/
theorem unambiguous_collection_of (info : Host_Info) (cls : SQL_Collection_Class) (row : Row) :
    Unambiguous db info cls (collection_of row) ↔
      if (collection_of row).oid_mapping_sequence_db_id = -1 then
        info.mapping_done = 1 ∨ cls.oid = [] ∨ row.premap_oid_suffix = []
      else info.mapping_done = 1 → resolved_suffix db info (collection_of row) ≠ some [] := by
  unfold Unambiguous
  split
  · simp [collection_of, eq_comm]
  · split
    · simp [*]
    · simp [collection_of, *]

end SnappCollector.Config
