import Mathlib.Data.List.AList
import SnappCollector.CLib.Text

/-!
# The records of a configuration

The classes of `collection_class.hpp`, `host_info.hpp` and `sql-collector.hpp` with
the fields that the modelled functions use.  Pointers into a vector of the
configuration are indexes.  `SQL_Host::timeticks` and `mytime`, which only
`get_collect` touches, make up a `Clock` of their own.
-/

namespace SnappCollector.Collection

open CLib

structure OID_Value_Table where
  oid : CStr
  suffix_of : AList fun _ : CStr => CStr

structure Host_Info where
  db_id : Int32
  ip_address : CStr
  community : CStr
  mapping_done : Int32
  oid_table : AList fun _ : CStr => OID_Value_Table

structure OID_mapping_sequence where
  db_id : Int32
  oid : List CStr

structure Oid_collection where
  oid_prefix : CStr
  ds_name : CStr

structure SQL_Collection where
  premaping_oid_suffix : CStr
  post_mapping_oid_suffix : CStr
  oid_mapping_sequence_db_id : Int64
  rrd_filename : CStr
deriving DecidableEq

structure SQL_Host where
  /-- the position of the host in the host table -/
  host : Nat
  collection : List SQL_Collection
deriving DecidableEq

/-- `SQL_Host::timeticks` and `SQL_Host::mytime`. -/
structure Clock where
  timeticks : Int32
  mytime : Int32
deriving DecidableEq

structure SQL_Collection_Class where
  db_id : UInt32
  interval : UInt32
  name : CStr
  oid : List Oid_collection
  host : List SQL_Host
  rrd_dir : CStr

end SnappCollector.Collection
