import SnappCollector.Config.Proofs.RowSteps
import SnappCollector.Data.Grouping

/-!
# What the loaded rows leave behind

After any rows that are sorted by class and host, the classes are the rows grouped
by class and, in each class, by host.  The variables of the loader point at the
last host of the last class, which is that of the last row.
-/

namespace SnappCollector.Config

open CLib Collection Data

/-! ## The rows, grouped -/

def host_entry (table : Host_Info_Table) (host_id : Int32) (rows : List Row) : SQL_Host :=
  ⟨(table.get_host_for_db_id host_id.toUInt32).getD 0, rows.map collection_of⟩

def host_entries (table : Host_Info_Table) (rows : List Row) : List SQL_Host :=
  mapGroups Row.host_id (host_entry table) rows

def class_entry (table : Host_Info_Table) (id : Int32) (rows : List Row) : SQL_Collection_Class :=
  ⟨id.toUInt32, (rows.head?.elim 0 (·.collection_interval)).toUInt32, rows.head?.elim [] (·.name),
    [], host_entries table rows, []⟩

def grouped (table : Host_Info_Table) (rows : List Row) : List SQL_Collection_Class :=
  mapGroups Row.collection_class_id (class_entry table) rows

/-- By class, and in a class by host. -/
def SortedRows (rows : List Row) : Prop :=
  rows.Pairwise fun row row' => row.collection_class_id < row'.collection_class_id ∨
    row.collection_class_id = row'.collection_class_id ∧ row.host_id ≤ row'.host_id

structure KnownRow (db : OID_mapping_sequence_db) (table : Host_Info_Table) (row : Row) :
    Prop where
  class_id : 0 ≤ row.collection_class_id
  host_id : 0 ≤ row.host_id
  host : (table.get_host_for_db_id row.host_id.toUInt32).isSome
  mapping : ∀ id, row.oid_suffix_mapping_id = some id →
    (db.get_sequence_by_db_id id.toUInt32).isSome

theorem SortedRows.classes {rows : List Row} (h : SortedRows rows) :
    rows.Pairwise (·.collection_class_id ≤ ·.collection_class_id) := by
  apply h.imp
  rintro row row' (hlt | ⟨heq, -⟩)
  · exact Int32.le_of_lt hlt
  · exact heq ▸ Int32.le_refl _

theorem SortedRows.hosts {rows : List Row} (h : SortedRows rows) (id : Int32) :
    (group Row.collection_class_id id rows).Pairwise (·.host_id ≤ ·.host_id) := by
  apply (h.filter _).imp_of_mem
  intro row row' hrow hrow' hrel
  have hclass := of_decide_eq_true (List.mem_filter.mp hrow).2
  have hclass' := of_decide_eq_true (List.mem_filter.mp hrow').2
  rcases hrel with hlt | ⟨-, hle⟩
  · rw [hclass, hclass'] at hlt
    exact absurd hlt Int32.lt_irrefl
  · exact hle

theorem class_entry_concat (table : Host_Info_Table) (id : Int32) {rows : List Row}
    (hne : rows ≠ []) (row : Row) :
    class_entry table id (rows ++ [row]) =
      with_hosts (class_entry table id rows) (host_entries table (rows ++ [row])) := by
  obtain ⟨first, rest, rfl⟩ := List.exists_cons_of_ne_nil hne
  rfl

theorem host_entry_concat (table : Host_Info_Table) (id : Int32) (rows : List Row) (row : Row) :
    host_entry table id (rows ++ [row]) = add_collection (host_entry table id rows) row := by
  simp [host_entry, add_collection]

/-! ## Known rows -/

section Steps

variable {db : OID_mapping_sequence_db} {table : Host_Info_Table} {s : Loading} {row : Row}
  {before : List SQL_Collection_Class} {cls : SQL_Collection_Class}

theorem KnownRow.sequence_of_isSome (hknown : KnownRow db table row) {id : Int32}
    (hid : row.oid_suffix_mapping_id = some id) :
    (sequence_of db (collection_of row)).isSome := by
  simpa [sequence_of, collection_of, hid] using hknown.mapping id hid

theorem row_sequence_ok (hknown : KnownRow db table row) :
    ∃ seq, row_sequence db row = .ok seq := by
  rw [row_sequence]
  cases hid : row.oid_suffix_mapping_id with
  | none => exact ⟨none, rfl⟩
  | some id =>
      obtain ⟨seq, hseq⟩ := Option.isSome_iff_exists.mp (hknown.sequence_of_isSome hid)
      exact ⟨some seq, by simp [hseq]⟩

theorem enter_known_host (hknown : KnownRow db s.host_table row)
    (hclasses : s.collection_class = before ++ [cls])
    (hindex : s.collection_class_index = before.length)
    (hclass : s.last_db_id = row.collection_class_id) (hnew : s.last_host_id ≠ row.host_id) :
    ∃ s', enter_host s row = .ok s' ∧ s'.host_table = s.host_table ∧
      PointsAt s' row before
        (with_hosts cls (cls.host ++ [host_entry s.host_table row.host_id []])) cls.host
        (host_entry s.host_table row.host_id []) := by
  obtain ⟨p, hp⟩ := Option.isSome_iff_exists.mp hknown.host
  have hentry : host_entry s.host_table row.host_id [] = ⟨p, []⟩ := by
    rw [host_entry, hp]
    rfl
  rw [hentry]
  exact ⟨_, enter_host_new hclasses hindex hnew hp, rfl, rfl, rfl, hindex, rfl, hclass, rfl⟩

theorem new_class_eq (table : Host_Info_Table) (row : Row) :
    new_class row = with_hosts (class_entry table row.collection_class_id [row]) [] := rfl

end Steps

/-! ## Any number of rows -/

structure Loaded (table : Host_Info_Table) (done : List Row) (s : Loading) : Prop where
  classes : s.collection_class = grouped table done
  same_hosts : SameHosts s.host_table table
  class_index : s.collection_class_index = s.collection_class.length - 1
  no_row : done = [] → s.last_db_id = -1
  last_row : ∀ init row, done = init ++ [row] →
    ∃ before cls hosts h, PointsAt s row before cls hosts h

theorem loaded_start (table : Host_Info_Table) : Loaded table [] (Loading.start table) where
  classes := rfl
  same_hosts _ := rfl
  class_index := rfl
  no_row _ := rfl
  last_row init row h := by simp at h

section Step

variable {db : OID_mapping_sequence_db} {table : Host_Info_Table} {done : List Row}
  {s : Loading} {row last : Row}

theorem loaded_concat {s₂ : Loading} {before : List SQL_Collection_Class}
    {cls : SQL_Collection_Class} {hosts : List SQL_Host} {h : SQL_Host}
    (hknown : KnownRow db table row) (hhosts : SameHosts s₂.host_table table)
    (hhost : enter_host (enter_class s row) row = .ok s₂)
    (hpoints : PointsAt s₂ row before cls hosts h)
    (hgrouped : grouped table (done ++ [row]) =
      before ++ [with_hosts cls (hosts ++ [add_collection h row])]) :
    ∃ s', load_row db s row = .ok s' ∧ Loaded table (done ++ [row]) s' := by
  obtain ⟨seq, hseq⟩ := row_sequence_ok hknown
  have hrow : load_row db s row = enter_collection db s₂ row := by rw [load_row, hhost, ok_bind]
  refine ⟨_, hrow.trans (enter_collection_at hpoints hseq), hgrouped.symm,
    fun db_id => hhosts db_id, ?_, ?_, ?_⟩
  · simp [hpoints.class_index]
  · intro hnil
    simp at hnil
  · intro init row' heq
    obtain rfl : row = row' := by simpa using (List.append_inj' heq rfl).2
    exact ⟨before, _, hosts, _, rfl, rfl, hpoints.class_index, hpoints.host_index,
      hpoints.last_db_id, hpoints.last_host_id⟩

theorem KnownRow.congr {table' : Host_Info_Table} (h : KnownRow db table row)
    (hsame : SameHosts table' table) : KnownRow db table' row where
  class_id := h.class_id
  host_id := h.host_id
  host := (hsame _).symm ▸ h.host
  mapping := h.mapping

theorem KnownRow.neg_one_ne_host (h : KnownRow db table row) : -1 ≠ row.host_id := by
  intro heq
  have hnonneg := h.host_id
  rw [← heq] at hnonneg
  exact absurd hnonneg (by decide)

theorem KnownRow.neg_one_ne_class (h : KnownRow db table row) : -1 ≠ row.collection_class_id := by
  intro heq
  have hnonneg := h.class_id
  rw [← heq] at hnonneg
  exact absurd hnonneg (by decide)

theorem host_entry_congr {table' : Host_Info_Table} (hsame : SameHosts table' table)
    (id : Int32) (rows : List Row) : host_entry table' id rows = host_entry table id rows := by
  unfold host_entry
  rw [hsame]

theorem host_entries_singleton (table : Host_Info_Table) (row : Row) :
    host_entries table [row] = [host_entry table row.host_id [row]] := by
  have hnone : row.host_id ∉ ([] : List Row).map Row.host_id := by simp
  exact mapGroups_concat_new hnone

theorem loaded_new_class (hknown : KnownRow db table row) (hloaded : Loaded table done s)
    (hnew : s.last_db_id ≠ row.collection_class_id)
    (hkey : row.collection_class_id ∉ done.map Row.collection_class_id) :
    ∃ s', load_row db s row = .ok s' ∧ Loaded table (done ++ [row]) s' := by
  have hentered := enter_class_new hnew
  have hsame : SameHosts (enter_class s row).host_table table := by
    rw [hentered]
    exact hloaded.same_hosts
  have hclasses : (enter_class s row).collection_class = s.collection_class ++
      [with_hosts (class_entry s.host_table row.collection_class_id [row]) []] := by
    rw [hentered, new_class_eq]
  have hhost_id : (enter_class s row).last_host_id ≠ row.host_id := by
    rw [hentered]
    exact hknown.neg_one_ne_host
  obtain ⟨s₂, hhost, htable, hpoints⟩ := enter_known_host (hknown.congr hsame) hclasses
    (by rw [hentered]) (by rw [hentered]) hhost_id
  apply loaded_concat hknown (htable ▸ hsame) hhost hpoints
  rw [grouped, mapGroups_concat_new hkey, ← grouped, ← hloaded.classes]
  simp only [with_hosts_with_hosts, with_hosts_host, host_entry_congr hsame, ← host_entry_concat,
    List.nil_append]
  rw [← host_entries_singleton]
  rfl

theorem grouped_last_class (table : Host_Info_Table) (hsorted : SortedRows (done ++ [last]))
    (hclass : row.collection_class_id = last.collection_class_id) :
    ∃ before rows, grouped table (done ++ [last]) =
        before ++ [class_entry table row.collection_class_id (rows ++ [last])] ∧
      grouped table (done ++ [last] ++ [row]) =
        before ++ [with_hosts (class_entry table row.collection_class_id (rows ++ [last]))
          (host_entries table (rows ++ [last] ++ [row]))] ∧
      group Row.collection_class_id row.collection_class_id (done ++ [last] ++ [row]) =
        rows ++ [last] ++ [row] := by
  obtain ⟨ks, hks⟩ := keys_concat_eq_append hsorted.classes
  rw [← hclass] at hks
  obtain ⟨before, hgrouped, hnext⟩ := mapGroups_concat_last (f := class_entry table) hks
  have hlast : group Row.collection_class_id row.collection_class_id (done ++ [last]) =
      group Row.collection_class_id row.collection_class_id done ++ [last] := by
    rw [hclass, group_concat_self]
  rw [hlast] at hgrouped hnext
  refine ⟨before, group Row.collection_class_id row.collection_class_id done, hgrouped, ?_, ?_⟩
  · rw [grouped, hnext, class_entry_concat table _ (by simp)]
  · rw [group_concat_self, hlast]

theorem loaded_same_class (hsorted : SortedRows (done ++ [last] ++ [row]))
    (hknown : KnownRow db table row) (hloaded : Loaded table (done ++ [last]) s)
    (hclass : row.collection_class_id = last.collection_class_id) :
    ∃ s', load_row db s row = .ok s' ∧ Loaded table (done ++ [last] ++ [row]) s' := by
  obtain ⟨before, cls, hosts, h, hpoints⟩ := hloaded.last_row done last rfl
  have hbefore : SortedRows (done ++ [last]) := (List.pairwise_append.mp hsorted).1
  obtain ⟨before', rows, hgrouped, hnext, hrows⟩ :=
    grouped_last_class table hbefore hclass
  obtain ⟨rfl, hcls⟩ : before = before' ∧
      [cls] = [class_entry table row.collection_class_id (rows ++ [last])] := by
    refine List.append_inj' ?_ rfl
    rw [← hpoints.classes, hloaded.classes, hgrouped]
  obtain rfl := List.singleton_inj.mp hcls
  have hsame : enter_class s row = s := enter_class_same (hpoints.last_db_id.trans hclass.symm)
  have hhost_sorted := hsorted.hosts row.collection_class_id
  rw [hrows] at hhost_sorted
  by_cases hhost : row.host_id = last.host_id
  · obtain ⟨ks, hks⟩ := keys_concat_eq_append (List.pairwise_append.mp hhost_sorted).1
    rw [← hhost] at hks
    obtain ⟨hosts', hentries, hnext_entries⟩ := mapGroups_concat_last (f := host_entry table) hks
    obtain ⟨rfl, hh⟩ : hosts = hosts' ∧ [h] =
        [host_entry table row.host_id (group Row.host_id row.host_id (rows ++ [last]))] := by
      refine List.append_inj' ?_ rfl
      rw [← hpoints.last_host, ← hentries]
      rfl
    obtain rfl := List.singleton_inj.mp hh
    have hentered : enter_host (enter_class s row) row = .ok s := by
      rw [hsame, enter_host_same (hpoints.last_host_id.trans hhost.symm)]
    refine loaded_concat hknown hloaded.same_hosts hentered
      ⟨hpoints.classes, hpoints.last_host, hpoints.class_index, hpoints.host_index,
        hpoints.last_db_id.trans hclass.symm, hpoints.last_host_id.trans hhost.symm⟩ ?_
    rw [hnext, host_entries, hnext_entries, host_entry_concat]
  · have hnew : row.host_id ∉ (rows ++ [last]).map Row.host_id :=
      key_notMem_of_ne hhost_sorted hhost
    obtain ⟨s₂, hentered, htable, hpoints'⟩ := enter_known_host (hknown.congr hloaded.same_hosts)
      hpoints.classes hpoints.class_index (hpoints.last_db_id.trans hclass.symm)
      (fun heq => hhost (heq.symm.trans hpoints.last_host_id))
    rw [← hsame] at hentered
    refine loaded_concat hknown (htable ▸ hloaded.same_hosts) hentered hpoints' ?_
    rw [hnext, host_entries, mapGroups_concat_new hnew, with_hosts_with_hosts,
      host_entry_congr hloaded.same_hosts, ← host_entry_concat]
    rfl

theorem loaded_step {all : List Row} (hsorted : SortedRows all)
    (hknown : ∀ row ∈ all, KnownRow db table row) (done : List Row) (row : Row) (s : Loading)
    (hall : done ++ [row] <+: all) (hloaded : Loaded table done s) :
    ∃ s', load_row db s row = .ok s' ∧ Loaded table (done ++ [row]) s' := by
  have hrow : KnownRow db table row := hknown row (hall.subset (by simp))
  have hprefix : SortedRows (done ++ [row]) := hsorted.sublist hall.sublist
  induction done using List.reverseRecOn with
  | nil =>
      have hnew : s.last_db_id ≠ row.collection_class_id := by
        rw [hloaded.no_row rfl]
        exact hrow.neg_one_ne_class
      exact loaded_new_class hrow hloaded hnew (by simp)
  | append_singleton done last _ =>
      by_cases hclass : row.collection_class_id = last.collection_class_id
      · exact loaded_same_class hprefix hrow hloaded hclass
      · obtain ⟨_, _, _, _, hpoints⟩ := hloaded.last_row done last rfl
        have hnew : s.last_db_id ≠ row.collection_class_id :=
          fun heq => hclass (heq.symm.trans hpoints.last_db_id)
        exact loaded_new_class hrow hloaded hnew (key_notMem_of_ne hprefix.classes hclass)

end Step

end SnappCollector.Config
