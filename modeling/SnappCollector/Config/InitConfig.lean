import SnappCollector.CollectionClass.Machine
import SnappCollector.Config.RrdFiles
import SnappCollector.Config.Suffixes
import SnappCollector.Hosts.OidTable

/-!
# Initializing a configuration

`init_config` creates the missing files, loads the tables of the hosts, maps the suffixes
and at last starts the threads of the collection classes.
-/

namespace SnappCollector.Config

open CLib Collection Data Hosts

variable {σ : Type}

structure Threads where
  worker : Nat
  main_thread : Bool
deriving DecidableEq

/-- Each `pthread_create` is asserted to give 0; the main thread comes behind the workers. -/
def initialize_class (pthread_create : Nat → Bool) (cls : SQL_Collection_Class) :
    Course Death Threads := do
  let num_workers := CollectionClass.num_workers cls.host.length
  (List.range num_workers).forM fun i => assert (pthread_create i)
  assert (pthread_create num_workers)
  return { worker := num_workers, main_thread := true }

structure InitAnswers (σ : Type) where
  fs : FileSystem σ
  /-- how deep the directories can be created -/
  stack : Nat
  tables : TableAnswers
  /-- for each class and each of its threads -/
  pthread_create : Nat → Nat → Bool

/-- The configuration with the tables of the hosts, as far as it is mapped. -/
def Loaded_config.with_host_table (config : Loaded_config) (host_table : Host_Info_Table) :
    Snapp_config where
  host_table := host_table
  oid_mapping_sequence_db := config.oid_mapping_sequence_db
  collection_class := config.collection_class.map (·.toSQL_Collection_Class)

def initialize_classes (pthread_create : Nat → Nat → Bool)
    (collection_class : List SQL_Collection_Class) : Course Death (List Threads) :=
  collection_class.zipIdx.mapM fun cls => initialize_class (pthread_create cls.2) cls.1

def init_config (answers : InitAnswers σ) (fuel : Nat) (config : Loaded_config) (s : σ) :
    Course Death (List Threads) := do
  let _ ← create_missing_rrd_files answers.fs answers.stack config s
  let host_table ← load_host_tables answers.tables fuel config.host_table
  let mapped ← asserted (map_collection_suffixes (config.with_host_table host_table))
  initialize_classes answers.pthread_create mapped.1

end SnappCollector.Config
