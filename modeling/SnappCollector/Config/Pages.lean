import Mathlib.Data.Prod.Lex
import SnappCollector.Config.LoadClasses
import SnappCollector.Data.SortedPages

/-!
# Pages and entries

What the database may answer to the page query, and what the loaded classes hold.
The query orders the join by class and host only, so rows with the same class and
host are tied.
-/

namespace SnappCollector.Config

open CLib Collection Data

/-- The `order by` of the page query. -/
def Row.key (row : Row) : Int ×ₗ Int :=
  toLex (row.collection_class_id.toInt, row.host_id.toInt)

/-- Every page that is answered is a slice of some ordering of the join, not
necessarily the same for all of them. -/
def Permits (rows : List Row) (limit : Nat) (query : Nat → Nat → Option (List Row)) : Prop :=
  ∀ i answer, query limit (i * limit) = some answer →
    ∃ ordering, OrderingOf Row.key rows ordering ∧ answer = page limit ordering i

def answers (limit : Nat) (ordering : Nat → List Row) (_ offset : Nat) : Option (List Row) :=
  some (page limit (ordering (offset / limit)) (offset / limit))

/-- A loaded collection, with the id of its class and the position of its host. -/
structure Entry where
  collection_class_id : UInt32
  host : Option Nat
  collection : SQL_Collection
deriving DecidableEq

def host_collections (db_id : UInt32) (h : SQL_Host) : List Entry :=
  h.collection.map (⟨db_id, some h.host, ·⟩)

def entries (classes : List SQL_Collection_Class) : List Entry :=
  classes.flatMap fun cls => cls.host.flatMap (host_collections cls.db_id)

/-- What a row is to be loaded as. -/
def entry_of (table : Host_Info_Table) (row : Row) : Entry :=
  ⟨row.collection_class_id.toUInt32, table.get_host_for_db_id row.host_id.toUInt32,
    collection_of row⟩

end SnappCollector.Config
