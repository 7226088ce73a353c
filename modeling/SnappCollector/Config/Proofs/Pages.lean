import SnappCollector.Config.Proofs.LoadedRows

/-!
# The loop over the pages

Whatever pages the database answers with, the loop loads the rows of one sorted list
one after the other: the list that has those pages.
-/

namespace SnappCollector.Config

open CLib Collection Data

variable {db : OID_mapping_sequence_db} {table : Host_Info_Table} {rows : List Row}
  {limit fuel i : Nat} {query : Nat → Nat → Option (List Row)} {s s' : Loading}

/-! ## Rows, one after the other -/

theorem load_rows_cases (hend : AtEnd table s) (hrows : rows.foldlM (load_row db) s = .ok s') :
    AtEnd table s' ∧ entries s'.collection_class =
      entries s.collection_class ++ rows.map (entry_of table) := by
  induction rows generalizing s with
  | nil =>
      cases hrows
      exact ⟨hend, by simp⟩
  | cons row rows ih =>
      rw [List.foldlM_cons] at hrows
      obtain ⟨s₁, hrow, hrest⟩ := bind_eq_ok.mp hrows
      obtain ⟨before, cls, hosts, h, seq, hloaded⟩ := load_row_cases hend hrow
      obtain ⟨hend', hentries⟩ := ih (hloaded.atEnd hend.same_hosts) hrest
      refine ⟨hend', ?_⟩
      rw [hentries, hloaded.entries_eq, List.map_cons, List.append_assoc, List.singleton_append]

structure ReadyRow (db : OID_mapping_sequence_db) (table : Host_Info_Table) (row : Row) :
    Prop where
  class_id : row.collection_class_id ≠ -1
  host_id : row.host_id ≠ -1
  host : ∃ p, table.get_host_for_db_id row.host_id.toUInt32 = some p
  sequence : ∃ seq, row_sequence db row = .ok seq

theorem load_rows_ok (hend : AtEnd table s) (hready : ∀ row ∈ rows, ReadyRow db table row) :
    ∃ s', rows.foldlM (load_row db) s = .ok s' := by
  induction rows generalizing s with
  | nil => exact ⟨s, rfl⟩
  | cons row rows ih =>
      obtain ⟨hclass, hhost, ⟨p, hp⟩, seq, hseq⟩ := hready row (by simp)
      obtain ⟨s₁, before, cls, hosts, h, hrow, hloaded⟩ :=
        load_row_ok hend ⟨fun _ => hclass, fun _ => hhost⟩ hp hseq
      obtain ⟨s', hrest⟩ := ih (hloaded.atEnd hend.same_hosts) fun row hrow =>
        hready row (by simp [hrow])
      exact ⟨s', by rw [List.foldlM_cons, hrow, ok_bind, hrest]⟩

/-! ## Pages of one list -/

theorem load_block_eq {answer : List Row} {offset : Nat} (hend : AtEnd table s)
    (hquery : query limit offset = some answer) :
    load_collection_class_block db query limit offset s =
      answer.foldlM (load_row db) s >>= fun s' => .ok (answer.length, s') := by
  have hindex : { s with collection_class_index := s.collection_class.length - 1 } = s := by
    rw [← hend.class_index]
  rw [load_collection_class_block, hquery]
  simp only [hindex]
  rfl

theorem drop_eq_page (limit i : Nat) (xs : List Row) :
    xs.drop (i * limit) = page limit xs i ++ xs.drop ((i + 1) * limit) := by
  rw [page, Nat.succ_mul, ← List.drop_drop, List.take_append_drop]

theorem length_page (limit i : Nat) (xs : List Row) :
    (page limit xs i).length = min limit (xs.length - i * limit) := by
  rw [page, List.length_take, List.length_drop]

/-- A loop over pages of a list that ends well has loaded the rows of the list. -/
theorem rows_of_load_blocks
    (hquery : ∀ i answer, query limit (i * limit) = some answer → answer = page limit rows i)
    (hend : AtEnd table s) (hi : i * limit ≤ rows.length)
    (hload : load_blocks db query limit fuel (i * limit) s = some (.ok s')) :
    (rows.drop (i * limit)).foldlM (load_row db) s = .ok s' := by
  induction fuel generalizing i s with
  | zero => cases hload
  | succ fuel ih =>
      rw [load_blocks] at hload
      cases hanswer : query limit (i * limit) with
      | none => simp [load_collection_class_block, hanswer] at hload
      | some answer =>
          obtain rfl := hquery i answer hanswer
          rw [load_block_eq hend hanswer] at hload
          have hlength := length_page limit i rows
          cases hpage : (page limit rows i).foldlM (load_row db) s with
          | error failure => simp [hpage, bind, Except.bind] at hload
          | ok s₁ =>
              have hend' := (load_rows_cases hend hpage).1
              rw [drop_eq_page, List.foldlM_append, hpage, ok_bind]
              simp only [hpage, ok_bind] at hload
              split at hload
              next hfull =>
                rw [← hfull, ← Nat.succ_mul] at hload
                exact ih hend' (by rw [Nat.succ_mul]; omega) hload
              next hshort =>
                cases hload
                rw [List.drop_of_length_le (by rw [Nat.succ_mul]; omega)]
                rfl

theorem load_blocks_of_rows (hlimit : 0 < limit)
    (hquery : ∀ i, query limit (i * limit) = some (page limit rows i)) (hend : AtEnd table s)
    (hrest : (rows.drop (i * limit)).foldlM (load_row db) s = .ok s')
    (hfuel : (rows.length - i * limit) / limit < fuel) :
    load_blocks db query limit fuel (i * limit) s = some (.ok s') := by
  induction fuel generalizing i s with
  | zero => exact absurd hfuel (Nat.not_lt_zero _)
  | succ fuel ih =>
      rw [drop_eq_page, List.foldlM_append] at hrest
      obtain ⟨s₁, hpage, hnext⟩ := bind_eq_ok.mp hrest
      have hend' := (load_rows_cases hend hpage).1
      have hlength := length_page limit i rows
      rw [load_blocks, load_block_eq hend (hquery i), hpage]
      simp only [ok_bind]
      split
      next hfull =>
        rw [← hfull, ← Nat.succ_mul]
        apply ih hend' hnext
        have hdiv : (rows.length - i * limit) / limit =
            (rows.length - (i + 1) * limit) / limit + 1 := by
          rw [← Nat.add_div_right _ hlimit, Nat.succ_mul]
          congr 1
          omega
        omega
      next hshort =>
        rw [List.drop_of_length_le (by rw [Nat.succ_mul]; omega)] at hnext
        cases hnext
        rfl

/-! ## Pages of many orderings -/

/-- The answers to the page query are the pages of one sorted list. -/
theorem exists_rows_of_permits (hlimit : 0 < limit) (hpermits : Permits rows limit query) :
    ∃ (ordering : Nat → List Row) (loaded : List Row),
      (∀ i, OrderingOf Row.key rows (ordering i)) ∧ loaded.length = rows.length ∧
      loaded ⊆ rows ∧ (∀ i, page limit loaded i = page limit (ordering i) i) ∧
      ∀ i answer, query limit (i * limit) = some answer → answer = page limit loaded i := by
  have hchoice : ∀ i, ∃ ordering, OrderingOf Row.key rows ordering ∧
      ∀ answer, query limit (i * limit) = some answer → answer = page limit ordering i := by
    intro i
    cases hanswer : query limit (i * limit) with
    | none =>
        obtain ⟨ordering, hordering⟩ := exists_ordering Row.key rows
        exact ⟨ordering, hordering, by simp⟩
    | some answer =>
        obtain ⟨ordering, hordering, rfl⟩ := hpermits i answer hanswer
        exact ⟨ordering, hordering, by simp⟩
  choose ordering hordering hanswers using hchoice
  obtain ⟨loaded, -, hlength, hsubset, hpages⟩ := exists_splice hlimit hordering
  exact ⟨ordering, loaded, hordering, hlength, hsubset, hpages,
    fun i answer hanswer => (hanswers i answer hanswer).trans (hpages i).symm⟩

theorem answers_mul (hlimit : 0 < limit) (ordering : Nat → List Row) (i : Nat) :
    answers limit ordering limit (i * limit) = some (page limit (ordering i) i) := by
  rw [answers, Nat.mul_div_cancel _ hlimit]

theorem permits_answers (hlimit : 0 < limit) {ordering : Nat → List Row}
    (hordering : ∀ i, OrderingOf Row.key rows (ordering i)) :
    Permits rows limit (answers limit ordering) := by
  intro i answer hanswer
  rw [answers_mul hlimit] at hanswer
  exact ⟨ordering i, hordering i, (Option.some.inj hanswer).symm⟩

end SnappCollector.Config
