import SnappCollector.Config.Pages
import SnappCollector.Config.Proofs.RowSteps

/-!
# What loaded rows leave behind

A load that succeeds appends one entry for every row, whatever the rows are.  A row
can be loaded if its host and its mapping sequence are known and its class and host
ids are not -1, which stands for no class and no host yet.
-/

namespace SnappCollector.Config

open CLib Collection Data

structure AtEnd (table : Host_Info_Table) (s : Loading) : Prop where
  same_hosts : SameHosts s.host_table table
  class_index : s.collection_class_index = s.collection_class.length - 1
  no_class : s.collection_class = [] → s.last_db_id = -1
  class_id : ∀ before cls, s.collection_class = before ++ [cls] →
    cls.db_id = s.last_db_id.toUInt32
  host_index : ∀ before cls, s.collection_class = before ++ [cls] →
    s.host_index = cls.host.length - 1
  no_host : ∀ before cls, s.collection_class = before ++ [cls] → cls.host ≠ []
  last_host : ∀ before cls hosts h, s.collection_class = before ++ [cls] →
    cls.host = hosts ++ [h] → table.get_host_for_db_id s.last_host_id.toUInt32 = some h.host

theorem atEnd_start (table : Host_Info_Table) : AtEnd table (Loading.start table) where
  same_hosts _ := rfl
  class_index := rfl
  no_class _ := rfl
  class_id before cls h := by simp [Loading.start] at h
  host_index before cls h := by simp [Loading.start] at h
  no_host before cls h := by simp [Loading.start] at h
  last_host before cls hosts host h := by simp [Loading.start] at h

section Row

variable {db : OID_mapping_sequence_db} {table : Host_Info_Table} {s s₁ s' : Loading} {row : Row}

structure RowLoaded (table : Host_Info_Table) (db : OID_mapping_sequence_db) (s : Loading)
    (row : Row) (s' : Loading) (before : List SQL_Collection_Class) (cls : SQL_Collection_Class)
    (hosts : List SQL_Host) (h : SQL_Host) (seq : Option OID_mapping_sequence) : Prop where
  sequence : row_sequence db row = .ok seq
  class_id : cls.db_id = row.collection_class_id.toUInt32
  host : table.get_host_for_db_id row.host_id.toUInt32 = some h.host
  opened : s.collection_class = before ++ [with_hosts cls (hosts ++ [h])] ∨
    h.collection = [] ∧ s.collection_class = before ++ [with_hosts cls hosts] ∨
    h.collection = [] ∧ hosts = [] ∧ s.collection_class = before
  result : s' =
    { collection_class := before ++ [with_hosts cls (hosts ++ [add_collection h row])]
      host_table := s.host_table.modify h.host (insert_oid_tables seq)
      last_db_id := row.collection_class_id
      last_host_id := row.host_id
      host_index := hosts.length
      collection_class_index := before.length }

theorem rowLoaded_of_pointsAt {before : List SQL_Collection_Class} {cls : SQL_Collection_Class}
    {hosts : List SQL_Host} {h : SQL_Host} {seq : Option OID_mapping_sequence}
    (htable : s₁.host_table = s.host_table) (hpoints : PointsAt s₁ row before cls hosts h)
    (hseq : row_sequence db row = .ok seq)
    (hclass : cls.db_id = row.collection_class_id.toUInt32)
    (hhost : table.get_host_for_db_id row.host_id.toUInt32 = some h.host)
    (hopened : s.collection_class = before ++ [cls] ∨
      h.collection = [] ∧ s.collection_class = before ++ [with_hosts cls hosts] ∨
      h.collection = [] ∧ hosts = [] ∧ s.collection_class = before) :
    ∃ s', enter_collection db s₁ row = .ok s' ∧
      RowLoaded table db s row s' before cls hosts h seq := by
  refine ⟨_, enter_collection_at hpoints hseq, hseq, hclass, hhost, ?_, ?_⟩
  · have hcls : with_hosts cls (hosts ++ [h]) = cls := by
      rw [← hpoints.last_host]
      rfl
    rwa [hcls]
  · rw [htable, hpoints.last_db_id, hpoints.last_host_id, hpoints.host_index, hpoints.class_index]

structure Distinguishable (s : Loading) (row : Row) : Prop where
  class_id : s.collection_class = [] → row.collection_class_id ≠ -1
  host_id : s.last_db_id ≠ row.collection_class_id → row.host_id ≠ -1

theorem enter_points (hend : AtEnd table s) (hids : Distinguishable s row) {p : Nat}
    (hp : table.get_host_for_db_id row.host_id.toUInt32 = some p) :
    ∃ s₁ before cls hosts h, enter_host (enter_class s row) row = .ok s₁ ∧
      s₁.host_table = s.host_table ∧ PointsAt s₁ row before cls hosts h ∧
      cls.db_id = row.collection_class_id.toUInt32 ∧
      table.get_host_for_db_id row.host_id.toUInt32 = some h.host ∧
      (s.collection_class = before ++ [cls] ∨
        h.collection = [] ∧ s.collection_class = before ++ [with_hosts cls hosts] ∨
        h.collection = [] ∧ hosts = [] ∧ s.collection_class = before) := by
  have hp' : s.host_table.get_host_for_db_id row.host_id.toUInt32 = some p :=
    (hend.same_hosts _).trans hp
  by_cases hclass : s.last_db_id = row.collection_class_id
  · rw [enter_class_same hclass]
    rcases List.eq_nil_or_concat s.collection_class with hnil | ⟨before, cls, hbefore⟩
    · exact absurd (hclass.symm.trans (hend.no_class hnil)) (hids.class_id hnil)
    rw [List.concat_eq_append] at hbefore
    have hcls : cls.db_id = row.collection_class_id.toUInt32 :=
      (hend.class_id before cls hbefore).trans (congrArg _ hclass)
    have hindex : s.collection_class_index = before.length := by
      rw [hend.class_index, hbefore]
      simp
    by_cases hhost : s.last_host_id = row.host_id
    · rcases List.eq_nil_or_concat cls.host with hnil | ⟨hosts, h, hlast⟩
      · exact absurd hnil (hend.no_host before cls hbefore)
      rw [List.concat_eq_append] at hlast
      have hhost_index : s.host_index = hosts.length := by
        rw [hend.host_index before cls hbefore, hlast]
        simp
      exact ⟨s, before, cls, hosts, h, enter_host_same hhost, rfl,
        ⟨hbefore, hlast, hindex, hhost_index, hclass, hhost⟩, hcls,
        hhost ▸ hend.last_host before cls hosts h hbefore hlast, .inl hbefore⟩
    · exact ⟨_, before, with_hosts cls (cls.host ++ [⟨p, []⟩]), cls.host, ⟨p, []⟩,
        enter_host_new hbefore hindex hhost hp', rfl, ⟨rfl, rfl, hindex, rfl, hclass, rfl⟩, hcls,
        hp, .inr (.inl ⟨rfl, hbefore⟩)⟩
  · rw [enter_class_new hclass]
    exact ⟨_, s.collection_class, with_hosts (new_class row) [⟨p, []⟩], [], ⟨p, []⟩,
      enter_host_new rfl rfl (hids.host_id hclass).symm hp', rfl, ⟨rfl, rfl, rfl, rfl, rfl, rfl⟩,
      rfl, hp, .inr (.inr ⟨rfl, rfl, rfl⟩)⟩

theorem load_row_ok (hend : AtEnd table s) (hids : Distinguishable s row) {p : Nat}
    (hp : table.get_host_for_db_id row.host_id.toUInt32 = some p)
    {seq : Option OID_mapping_sequence} (hseq : row_sequence db row = .ok seq) :
    ∃ s' before cls hosts h, load_row db s row = .ok s' ∧
      RowLoaded table db s row s' before cls hosts h seq := by
  obtain ⟨s₁, before, cls, hosts, h, hhost, htable, hpoints, hcls, hp, hopened⟩ :=
    enter_points hend hids hp
  obtain ⟨s', hcollection, hloaded⟩ :=
    rowLoaded_of_pointsAt htable hpoints hseq hcls hp hopened
  exact ⟨s', before, cls, hosts, h, by rw [load_row, hhost, ok_bind, hcollection], hloaded⟩

theorem known_of_load_row (hend : AtEnd table s) (hrow : load_row db s row = .ok s') :
    Distinguishable s row ∧
      (∃ p, table.get_host_for_db_id row.host_id.toUInt32 = some p) ∧
      ∃ seq, row_sequence db row = .ok seq := by
  obtain ⟨s₁, hhost, hcollection⟩ := bind_eq_ok.mp hrow
  obtain ⟨seq, i, cls, j, h, hseq, hcls, hh⟩ := enter_collection_ok hcollection
  by_cases hsame : (enter_class s row).last_host_id = row.host_id
  · rw [enter_host_same hsame] at hhost
    cases hhost
    by_cases hclass : s.last_db_id = row.collection_class_id
    · rw [enter_class_same hclass] at hsame hcls hh
      obtain ⟨before, hbefore⟩ := exists_last_of_element_at (hend.class_index ▸ hcls)
      obtain ⟨hosts, hlast⟩ :=
        exists_last_of_element_at (hend.host_index before cls hbefore ▸ hh)
      refine ⟨⟨fun hnil => ?_, fun hne => absurd hclass hne⟩,
        ⟨_, hsame ▸ hend.last_host before cls hosts h hbefore hlast⟩, seq, hseq⟩
      simp [hnil] at hbefore
    · -- the host index is still -1
      rw [enter_class_new hclass] at hh
      cases hh
  · obtain ⟨p, i', cls', hp, hcls'⟩ := enter_host_ok hsame hhost
    by_cases hclass : s.last_db_id = row.collection_class_id
    · rw [enter_class_same hclass] at hp hcls'
      obtain ⟨before, hbefore⟩ := exists_last_of_element_at (hend.class_index ▸ hcls')
      refine ⟨⟨fun hnil => ?_, fun hne => absurd hclass hne⟩,
        ⟨p, (hend.same_hosts _).symm.trans hp⟩, seq, hseq⟩
      simp [hnil] at hbefore
    · rw [enter_class_new hclass] at hsame hp
      refine ⟨⟨fun hnil heq => ?_, fun _ heq => hsame heq.symm⟩,
        ⟨p, (hend.same_hosts _).symm.trans hp⟩, seq, hseq⟩
      exact hclass ((hend.no_class hnil).trans heq.symm)

theorem load_row_cases (hend : AtEnd table s) (hrow : load_row db s row = .ok s') :
    ∃ before cls hosts h seq, RowLoaded table db s row s' before cls hosts h seq := by
  obtain ⟨hids, ⟨p, hp⟩, seq, hseq⟩ := known_of_load_row hend hrow
  obtain ⟨s₂, before, cls, hosts, h, hok, hloaded⟩ := load_row_ok hend hids hp hseq
  obtain rfl : s₂ = s' := Except.ok.inj (hok.symm.trans hrow)
  exact ⟨before, cls, hosts, h, seq, hloaded⟩

/-! ## Entries -/

theorem entries_append (classes classes' : List SQL_Collection_Class) :
    entries (classes ++ classes') = entries classes ++ entries classes' := List.flatMap_append

theorem entries_with_hosts (cls : SQL_Collection_Class) (hosts : List SQL_Host) :
    entries [with_hosts cls hosts] = hosts.flatMap (host_collections cls.db_id) := by
  simp [entries]

variable {before : List SQL_Collection_Class} {cls : SQL_Collection_Class}
  {hosts : List SQL_Host} {h : SQL_Host} {seq : Option OID_mapping_sequence}

theorem RowLoaded.entries_eq (hrow : RowLoaded table db s row s' before cls hosts h seq) :
    entries s'.collection_class = entries s.collection_class ++ [entry_of table row] := by
  have hnew : entries s'.collection_class = entries before ++
      hosts.flatMap (host_collections cls.db_id) ++ host_collections cls.db_id h ++
        [entry_of table row] := by
    rw [hrow.result, entries_append, entries_with_hosts, entry_of, hrow.host, ← hrow.class_id]
    simp [host_collections, add_collection]
  rw [hnew]
  rcases hrow.opened with hold | ⟨hempty, hclass⟩ | ⟨hempty, rfl, hbefore⟩
  · rw [hold, entries_append, entries_with_hosts]
    simp
  · rw [hclass, entries_append, entries_with_hosts]
    simp [host_collections, hempty]
  · rw [hbefore]
    simp [host_collections, hempty]

theorem RowLoaded.atEnd (hrow : RowLoaded table db s row s' before cls hosts h seq)
    (hsame : SameHosts s.host_table table) : AtEnd table s' := by
  have hresult := hrow.result
  subst hresult
  have hlast : ∀ before' cls', before ++ [with_hosts cls (hosts ++ [add_collection h row])] =
      before' ++ [cls'] → cls' = with_hosts cls (hosts ++ [add_collection h row]) := by
    intro before' cls' heq
    exact (List.singleton_inj.mp (List.append_inj' heq rfl).2).symm
  refine ⟨hsame, by simp, fun hnil => by simp at hnil, fun before' cls' heq => ?_,
    fun before' cls' heq => ?_, fun before' cls' heq => ?_, fun before' cls' hosts' h' heq hh => ?_⟩
  · rw [hlast before' cls' heq]
    exact hrow.class_id
  · rw [hlast before' cls' heq]
    simp
  · rw [hlast before' cls' heq]
    simp
  · rw [hlast before' cls' heq, with_hosts_host] at hh
    obtain rfl := List.singleton_inj.mp (List.append_inj' hh rfl).2
    exact hrow.host

end Row

end SnappCollector.Config
