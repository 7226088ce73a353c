import SnappCollector.CLib.Tokens
import SnappCollector.Config.LoadConfig

/-!
# Creating the missing files

`create_missing_rrd_files` looks for the file of every collection, and for a missing one
creates its directory and the file itself.  The file system is a state that every call may
change; `stack` bounds the depth of a recursion.
-/

namespace SnappCollector.Config

open CLib Collection Data

variable {σ : Type}

/-! ## Directories -/

inductive Errno where
  | EEXIST
  | ENOENT
  | other
deriving DecidableEq

/-- `mkdir` gives the error, if there is one. -/
def recursive_dir_create (mkdir : CStr → σ → Option Errno × σ) :
    Nat → CStr → σ → Course Death (Int32 × σ)
  | 0, _, _ => .died .fault
  | stack + 1, current_dir, s =>
      match mkdir current_dir s with
      | (none, s) => .returned (0, s)
      | (some .EEXIST, s) => .returned (0, s)
      | (some .ENOENT, s) => do
          let made ← recursive_dir_create mkdir stack (substr_before_last '/' current_dir) s
          -- without a `break`, this goes on with the other errors
          return (-1, made.2)
      | (some .other, s) => .returned (-1, s)

/-! ## Definitions -/

def CONFIG_SYS_STR_SIZE : Nat := 1024

/-- `snprintf(buf,sizeof(buf)-1,…)` with a `buf` of 128 characters. -/
def in_buf (text : CStr) : CStr := text.take 126

def ds_text (interval : UInt32) (oid : OidRow) : CStr :=
  if strstr oid.datatype "COMPUTE".toList = none then
    in_buf ("DS:".toList ++ oid.ds_name ++ ":".toList ++ oid.datatype ++ ":".toList ++
      dec_int (interval * 2).toInt32.toInt ++ ":0:1e11 ".toList)
  else in_buf ("DS:".toList ++ oid.ds_name ++ ":".toList ++ oid.datatype ++ " ".toList)

def rra_rows (interval : UInt32) (rra : RRA_definition) : UInt32 :=
  rra.numdays * 3600 * 24 / (interval * rra.steps)

def rra_text (interval : UInt32) (rra : RRA_definition) : CStr :=
  in_buf ("RRA:".toList ++ rra.cf ++ ":".toList ++ rra.xff ++ ":".toList ++
    dec_int rra.steps.toInt32.toInt ++ ":".toList ++
    dec_int (rra_rows interval rra).toInt32.toInt ++ " ".toList)

/-- `strncat(rra_str,buf,CONFIG_SYS_STR_SIZE-1)`, which asks for the length of `buf`. -/
def append_buf (rra_str buf : CStr) : Course Death CStr :=
  let text := strncat rra_str buf (CONFIG_SYS_STR_SIZE - 1)
  if text.length < CONFIG_SYS_STR_SIZE then .returned text else .died .fault

/-- The body of the loop over the archives: a division by zero ends the process. -/
def append_rra (interval : UInt32) (rra_str : CStr) (rra : RRA_definition) : Course Death CStr :=
  if interval * rra.steps = 0 then .died .fault else append_buf rra_str (rra_text interval rra)

def fill_rra_str (cls : Loaded_class) : Course Death CStr := do
  let rra_str ← cls.oid_rows.foldlM (fun rra_str oid =>
    append_buf rra_str (ds_text cls.interval oid)) []
  cls.rra.foldlM (append_rra cls.interval) rra_str

def tokenize : Nat → CStr → Course Death (List CStr)
  | 0, _ => .returned []
  | rrd_argc + 1, text => do
      let (token, save_ptr) ← asserted (strtok_r ' ' text)
      let rrd_argv ← tokenize rrd_argc save_ptr
      return token :: rrd_argv

/-! ## Files -/

structure RrdCreate where
  filename : CStr
  pdp_step : UInt32
  argv : List CStr
deriving DecidableEq

structure FileSystem (σ : Type) where
  is_regular : CStr → σ → Bool
  mkdir : CStr → σ → Option Errno × σ
  calloc : σ → Bool
  /-- its result is only logged -/
  rrd_create_r : RrdCreate → σ → σ
  /-- what `print_log` takes for the missing argument of its `%s` is a text -/
  stray_argument : σ → Bool

def create_missing_rrd_file (fs : FileSystem σ) (stack : Nat) (rrd_dir : CStr) (s : σ)
    (collection : Loaded_class × SQL_Collection) : Course Death σ := do
  let (cls, c) := collection
  let full_filename := rrd_dir ++ c.rrd_filename
  if fs.is_regular full_filename s then return s
  else
    let made ← recursive_dir_create fs.mkdir stack (substr_before_last '/' full_filename) s
    if cls.oid_rows = [] ∨ cls.rra = [] then
      if fs.stray_argument made.2 then .failed else .died .fault
    else
      let rra_str ← fill_rra_str cls
      assert (fs.calloc made.2)
      let argv ← tokenize (cls.oid_rows.length + cls.rra.length) rra_str
      return fs.rrd_create_r ⟨full_filename, cls.interval, argv⟩ made.2

def collections_of (collection_class : List Loaded_class) : List (Loaded_class × SQL_Collection) :=
  collection_class.flatMap fun cls => cls.host.flatMap fun h => h.collection.map (cls, ·)

def create_missing_rrd_files (fs : FileSystem σ) (stack : Nat) (config : Loaded_config) (s : σ) :
    Course Death σ :=
  (collections_of config.collection_class).foldlM
    (create_missing_rrd_file fs stack config.rrd_dir) s

end SnappCollector.Config
