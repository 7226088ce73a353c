import SnappCollector.Config.Proofs.Paging

/-!
# Ties at the end of a page

The page query leaves the order of rows with one class and one host open, and each
page is a query of its own.  Every row is loaded once, whatever the database does,
if no page ends between two such rows that are loaded differently, and only then.
-/

namespace SnappCollector.Config

open CLib Collection Data

variable {db : OID_mapping_sequence_db} {table : Host_Info_Table} {rows : List Row}

/-- Rows with the same class and the same host are told apart by their collections. -/
theorem entry_of_eq_iff {row row' : Row} (hkey : row.key = row'.key) :
    entry_of table row = entry_of table row' ↔ collection_of row = collection_of row' := by
  obtain ⟨hclass, hhost⟩ := Prod.mk.inj (toLex.injective hkey)
  simp [entry_of, Int32.toInt_inj.mp hclass, Int32.toInt_inj.mp hhost]

theorem cleanCut_entry_of (table : Host_Info_Table) (n : Nat) :
    CleanCut Row.key (entry_of table) rows n ↔ CleanCut Row.key collection_of rows n := by
  refine forall_congr' fun k => forall_congr' fun _ => forall_congr' fun _ => ?_
  refine forall_congr' fun row => forall_congr' fun hrow => forall_congr' fun row' =>
    forall_congr' fun hrow' => entry_of_eq_iff ?_
  rw [(mem_tied.mp hrow).2, (mem_tied.mp hrow').2]

theorem entries_of_load {limit fuel : Nat} {query : Nat → Nat → Option (List Row)}
    {loaded : List Row} {s : Loading}
    (hquery : ∀ i answer, query limit (i * limit) = some answer → answer = page limit loaded i)
    (hload : load_blocks db query limit fuel 0 (Loading.start table) = some (.ok s)) :
    entries s.collection_class = loaded.map (entry_of table) := by
  rw [← Nat.zero_mul limit] at hload
  have hrows := rows_of_load_blocks hquery (atEnd_start table) (by simp) hload
  rw [Nat.zero_mul, List.drop_zero] at hrows
  exact (load_rows_cases (atEnd_start table) hrows).2

theorem page_of_answers {limit : Nat} (hlimit : 0 < limit) {ordering : Nat → List Row}
    {loaded : List Row} (hpages : ∀ i, page limit loaded i = page limit (ordering i) i) :
    ∀ i answer, answers limit ordering limit (i * limit) = some answer →
      answer = page limit loaded i := by
  intro i answer hanswer
  rw [answers_mul hlimit] at hanswer
  rw [hpages, Option.some.inj hanswer]

/-- Every row of the join is loaded exactly once, for every behaviour of the database
that the page query permits, if and only if no page ends between two rows of one class
and one host that are loaded differently.  The load is to succeed where the database
answers all its queries. -/
theorem loads_every_row_once_iff
    (hloads : ∀ ordering : Nat → List Row, (∀ i, OrderingOf Row.key rows (ordering i)) →
      ∃ fuel s, load_collection_classes db (answers row_limit ordering) fuel table =
        some (.ok s)) :
    (∀ query fuel s, Permits rows row_limit query →
        load_collection_classes db query fuel table = some (.ok s) →
        (entries s.collection_class).Perm (rows.map (entry_of table))) ↔
      ∀ i, CleanCut Row.key collection_of rows (i * row_limit) := by
  have hlimit : 0 < row_limit := by decide
  simp only [← cleanCut_entry_of table]
  constructor
  · intro honce i
    by_contra hsplit
    obtain ⟨ordering, loaded, hordering, -, hpages, hnot⟩ :=
      exists_repeated hsplit
    obtain ⟨fuel, s, hload⟩ := hloads ordering hordering
    have hperm := honce _ fuel s (permits_answers hlimit hordering) hload
    rw [entries_of_load (page_of_answers hlimit hpages) hload] at hperm
    exact hnot hperm
  · intro hclean query fuel s hpermits hload
    obtain ⟨ordering, loaded, hordering, hlength, -, hpages, hquery⟩ :=
      exists_rows_of_permits hlimit hpermits
    rw [entries_of_load hquery hload]
    exact splice_perm hlimit hordering hlength hpages hclean

theorem loads_of_ready (hready : ∀ row ∈ rows, ReadyRow db table row) {limit : Nat}
    (hlimit : 0 < limit) {query : Nat → Nat → Option (List Row)}
    (hpermits : Permits rows limit query)
    (hanswered : ∀ i, ∃ answer, query limit (i * limit) = some answer) :
    ∃ fuel s loaded, load_blocks db query limit fuel 0 (Loading.start table) = some (.ok s) ∧
      loaded ⊆ rows ∧ loaded.foldlM (load_row db) (Loading.start table) = .ok s := by
  obtain ⟨ordering, loaded, -, -, hsubset, -, hquery⟩ := exists_rows_of_permits hlimit hpermits
  obtain ⟨s, hrows⟩ := load_rows_ok (atEnd_start table) fun row hrow =>
    hready row (hsubset hrow)
  refine ⟨loaded.length / limit + 1, s, loaded, ?_, hsubset, hrows⟩
  rw [← Nat.zero_mul limit]
  refine load_blocks_of_rows hlimit (fun i => ?_) (atEnd_start table) (by simpa using hrows)
    (by simp)
  obtain ⟨answer, hanswer⟩ := hanswered i
  rw [hanswer, hquery i answer hanswer]

theorem loads_of_ready_answers (hready : ∀ row ∈ rows, ReadyRow db table row)
    (ordering : Nat → List Row) (hordering : ∀ i, OrderingOf Row.key rows (ordering i)) :
    ∃ fuel s, load_collection_classes db (answers row_limit ordering) fuel table =
      some (.ok s) := by
  have hlimit : 0 < row_limit := by decide
  obtain ⟨fuel, s, -, hload, -⟩ := loads_of_ready hready hlimit (permits_answers hlimit hordering)
    fun i => ⟨_, answers_mul hlimit ordering i⟩
  exact ⟨fuel, s, hload⟩

/-! ## One host with more collections than a page has rows -/

theorem ready_sampleRow (id : Int32) (hid : id ≠ -1) (rrdfile : CStr) :
    ReadyRow noSequences knownHosts (sampleRow id rrdfile) where
  class_id := hid
  host_id := by
    change (7 : Int32) ≠ -1
    decide
  host := by
    change ∃ p, knownHosts.get_host_for_db_id 7 = some p
    exact ⟨0, by decide⟩
  sequence := ⟨none, rfl⟩

/-- With one row more than a page holds, all of one class and one host, a row can be
loaded twice or not at all. -/
def crowdedRows : List Row :=
  (List.range (row_limit + 1)).map fun i => sampleRow 1 (dec i)

theorem ready_crowdedRows : ∀ row ∈ crowdedRows, ReadyRow noSequences knownHosts row := by
  intro row hrow
  obtain ⟨i, -, rfl⟩ := List.mem_map.mp hrow
  exact ready_sampleRow 1 (by decide) (dec i)

theorem not_cleanCut_crowdedRows : ¬CleanCut Row.key collection_of crowdedRows (1 * row_limit) := by
  intro hclean
  have hkey : ∀ row ∈ crowdedRows, row.key = toLex (1, 7) := by
    intro row hrow
    obtain ⟨i, -, rfl⟩ := List.mem_map.mp hrow
    rfl
  have htied : tied Row.key (toLex (1, 7)) crowdedRows = crowdedRows :=
    List.filter_eq_self.mpr fun row hrow => by simp [hkey row hrow]
  have hbelow : below Row.key (toLex (1, 7)) crowdedRows = [] :=
    List.filter_eq_nil_iff.mpr fun row hrow => by simp [hkey row hrow]
  have hlength : crowdedRows.length = row_limit + 1 := by simp [crowdedRows]
  have hmem : ∀ i < row_limit + 1, sampleRow 1 (dec i) ∈ crowdedRows := fun i hi =>
    List.mem_map.mpr ⟨i, List.mem_range.mpr hi, rfl⟩
  have hsame := hclean (toLex (1, 7)) (by rw [hbelow]; decide)
    (by rw [hbelow, htied, hlength]; decide)
    (sampleRow 1 (dec 0)) (htied.symm ▸ hmem 0 (by decide))
    (sampleRow 1 (dec 1)) (htied.symm ▸ hmem 1 (by decide))
  have hfile : dec 0 = dec 1 := congrArg SQL_Collection.rrd_filename hsame
  exact absurd (dec_injective hfile) (by decide)

theorem ready_sampleRows : ∀ row ∈ sampleRows, ReadyRow noSequences knownHosts row := by
  intro row hrow
  simp only [sampleRows, List.mem_cons, List.not_mem_nil, or_false] at hrow
  rcases hrow with rfl | rfl | rfl <;> exact ready_sampleRow _ (by decide) _

theorem loads_sampleRows_once :
    ∃ query fuel s, Permits sampleRows row_limit query ∧
      load_collection_classes noSequences query fuel knownHosts = some (.ok s) ∧
      (entries s.collection_class).Perm (sampleRows.map (entry_of knownHosts)) := by
  have hlimit : 0 < row_limit := by decide
  have hcuts : ∀ i, CleanCut Row.key collection_of sampleRows (i * row_limit) := by
    intro i
    rcases i with _ | i
    · exact cleanCut_zero
    · refine cleanCut_of_length_le ?_
      simp [sampleRows, row_limit]
      omega
  have honce := (loads_every_row_once_iff (loads_of_ready_answers ready_sampleRows)).mpr hcuts
  obtain ⟨ordering, hordering⟩ := exists_ordering Row.key sampleRows
  obtain ⟨fuel, s, hload⟩ :=
    loads_of_ready_answers ready_sampleRows (fun _ => ordering) fun _ => hordering
  have hpermits := permits_answers hlimit fun _ : Nat => hordering
  exact ⟨_, fuel, s, hpermits, hload, honce _ fuel s hpermits hload⟩

theorem loads_crowdedRows_wrong :
    ∃ query fuel s, Permits crowdedRows row_limit query ∧
      load_collection_classes noSequences query fuel knownHosts = some (.ok s) ∧
      ¬(entries s.collection_class).Perm (crowdedRows.map (entry_of knownHosts)) := by
  have hlimit : 0 < row_limit := by decide
  obtain ⟨ordering, loaded, hordering, -, hpages, hnot⟩ :=
    exists_repeated (mt (cleanCut_entry_of knownHosts _).mp not_cleanCut_crowdedRows)
  obtain ⟨fuel, s, hload⟩ := loads_of_ready_answers ready_crowdedRows ordering hordering
  refine ⟨_, fuel, s, permits_answers hlimit hordering, hload, ?_⟩
  rw [entries_of_load (page_of_answers hlimit hpages) hload]
  exact hnot

end SnappCollector.Config
