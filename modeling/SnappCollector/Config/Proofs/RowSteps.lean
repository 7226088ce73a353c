import SnappCollector.Config.LoadClasses
import SnappCollector.Data.Loops

/-!
# One row of the loader

What a row that is loaded does, whatever the rows before it: it appends its
collection to the last host of the last class, which it may have opened.  The
variables of the loader point there, before the row and after it.
-/

namespace SnappCollector.Config

open CLib Collection Data

def with_hosts (cls : SQL_Collection_Class) (host : List SQL_Host) : SQL_Collection_Class :=
  { cls with host }

@[simp] theorem with_hosts_host (cls : SQL_Collection_Class) (host : List SQL_Host) :
    (with_hosts cls host).host = host := rfl

@[simp] theorem with_hosts_db_id (cls : SQL_Collection_Class) (host : List SQL_Host) :
    (with_hosts cls host).db_id = cls.db_id := rfl

@[simp] theorem with_hosts_with_hosts (cls : SQL_Collection_Class) (host host' : List SQL_Host) :
    with_hosts (with_hosts cls host) host' = with_hosts cls host' := rfl

def add_collection (h : SQL_Host) (row : Row) : SQL_Host :=
  { h with collection := h.collection ++ [collection_of row] }

/-- Two tables with the same hosts at the same positions, whatever their OID tables. -/
def SameHosts (table table' : Host_Info_Table) : Prop :=
  ∀ db_id, table.get_host_for_db_id db_id = table'.get_host_for_db_id db_id

structure PointsAt (s : Loading) (row : Row) (before : List SQL_Collection_Class)
    (cls : SQL_Collection_Class) (hosts : List SQL_Host) (h : SQL_Host) : Prop where
  classes : s.collection_class = before ++ [cls]
  last_host : cls.host = hosts ++ [h]
  class_index : s.collection_class_index = before.length
  host_index : s.host_index = hosts.length
  last_db_id : s.last_db_id = row.collection_class_id
  last_host_id : s.last_host_id = row.host_id

theorem element_at_last {α : Type} (xs : List α) (x : α) :
    element_at (xs ++ [x]) xs.length = .ok (xs.length, x) := by
  rw [element_at, if_neg (by omega)]
  simp

theorem set_last {α : Type} (xs : List α) (x y : α) :
    (xs ++ [x]).set xs.length y = xs ++ [y] := by
  simp

theorem exists_last_of_element_at {α : Type} {xs : List α} {i : Nat} {x : α}
    (h : element_at xs (xs.length - 1) = .ok (i, x)) : ∃ before, xs = before ++ [x] := by
  rcases List.eq_nil_or_concat xs with rfl | ⟨before, last, rfl⟩
  · cases h
  · rw [List.concat_eq_append] at h ⊢
    have hindex : ((before ++ [last]).length : Int) - 1 = before.length := by simp
    rw [hindex, element_at_last] at h
    cases h
    exact ⟨before, rfl⟩

section Steps

variable {db : OID_mapping_sequence_db} {s s' : Loading} {row : Row}
  {before : List SQL_Collection_Class} {cls : SQL_Collection_Class} {hosts : List SQL_Host}
  {h : SQL_Host}

theorem enter_class_same (hsame : s.last_db_id = row.collection_class_id) :
    enter_class s row = s := by
  rw [enter_class, if_neg (not_not.mpr (congrArg Int32.toUInt32 hsame))]

def new_class (row : Row) : SQL_Collection_Class :=
  ⟨row.collection_class_id.toUInt32, row.collection_interval.toUInt32, row.name, [], [], []⟩

theorem enter_class_new (hnew : s.last_db_id ≠ row.collection_class_id) :
    enter_class s row = { s with
      collection_class := s.collection_class ++ [new_class row]
      last_db_id := row.collection_class_id
      collection_class_index := s.collection_class.length
      last_host_id := -1
      host_index := -1 } := by
  have hne : s.last_db_id.toUInt32 ≠ row.collection_class_id.toUInt32 :=
    fun h => hnew (by simpa using congrArg UInt32.toInt32 h)
  rw [enter_class, if_pos hne]
  simp [new_class]

theorem enter_host_same (hsame : s.last_host_id = row.host_id) : enter_host s row = .ok s := by
  rw [enter_host, if_neg (not_not.mpr hsame)]

theorem enter_host_new {p : Nat} (hclasses : s.collection_class = before ++ [cls])
    (hindex : s.collection_class_index = before.length) (hnew : s.last_host_id ≠ row.host_id)
    (hp : s.host_table.get_host_for_db_id row.host_id.toUInt32 = some p) :
    enter_host s row = .ok { s with
      collection_class := before ++ [with_hosts cls (cls.host ++ [⟨p, []⟩])]
      host_index := cls.host.length
      last_host_id := row.host_id } := by
  have hlast : element_at s.collection_class s.collection_class_index =
      .ok (before.length, cls) := by
    rw [hclasses, hindex, element_at_last]
  rw [enter_host, if_pos hnew, hp]
  simp only [hlast, ok_bind]
  rw [hclasses, set_last]
  rfl

theorem enter_collection_at {seq : Option OID_mapping_sequence}
    (hpoints : PointsAt s row before cls hosts h) (hseq : row_sequence db row = .ok seq) :
    enter_collection db s row = .ok { s with
      collection_class := before ++ [with_hosts cls (hosts ++ [add_collection h row])]
      host_table := s.host_table.modify h.host (insert_oid_tables seq) } := by
  have hclass : element_at s.collection_class s.collection_class_index =
      .ok (before.length, cls) := by
    rw [hpoints.classes, hpoints.class_index, element_at_last]
  have hhost : element_at cls.host s.host_index = .ok (hosts.length, h) := by
    rw [hpoints.last_host, hpoints.host_index, element_at_last]
  simp only [enter_collection, hseq, hclass, ok_bind, hhost]
  rw [hpoints.classes, hpoints.last_host, set_last, set_last]
  rfl

theorem enter_collection_ok (hok : enter_collection db s row = .ok s') :
    ∃ seq i cls j h, row_sequence db row = .ok seq ∧
      element_at s.collection_class s.collection_class_index = .ok (i, cls) ∧
      element_at cls.host s.host_index = .ok (j, h) := by
  rw [enter_collection] at hok
  obtain ⟨seq, hseq, hok⟩ := bind_eq_ok.mp hok
  obtain ⟨⟨i, cls⟩, hcls, hok⟩ := bind_eq_ok.mp hok
  obtain ⟨⟨j, h⟩, hh, -⟩ := bind_eq_ok.mp hok
  exact ⟨seq, i, cls, j, h, hseq, hcls, hh⟩

theorem enter_host_ok (hnew : s.last_host_id ≠ row.host_id)
    (hok : enter_host s row = .ok s') :
    ∃ p i cls, s.host_table.get_host_for_db_id row.host_id.toUInt32 = some p ∧
      element_at s.collection_class s.collection_class_index = .ok (i, cls) := by
  rw [enter_host, if_pos hnew] at hok
  split at hok
  · cases hok
  next p hp =>
    obtain ⟨⟨i, cls⟩, hcls, -⟩ := bind_eq_ok.mp hok
    exact ⟨p, i, cls, hp, hcls⟩

end Steps

end SnappCollector.Config
