import SnappCollector.Config.Proofs.Definitions
import SnappCollector.Config.Proofs.Directories

/-!
# Missing files are created after some reloads

`recursive_dir_create` makes one directory of a path, and then the file is created only if its
directory is there.  But each reload makes one more, so the files are created after as many
reloads as directories were missing, each of them once.  What librrd does is a parameter,
with what its documentation says of `rrd_create_r` as hypotheses.
-/

namespace SnappCollector.Config

open CLib Collection Data Directories

/-! ## A disk -/

/-- The directories, and the regular files in the order in which they were created: one that is
created where another stands is there twice. -/
structure Disk where
  directories : Directories
  files : List (List CStr)

namespace Disk

def mkdir (text : CStr) (s : Disk) : Option Errno × Disk :=
  if tokens '/' text ∈ s.files then (some .EEXIST, s)
  -- ENOTDIR
  else if s.files.any (· <+: tokens '/' text) then (some .other, s)
  else
    let (error, directories) := Directories.mkdir text s.directories
    (error, { s with directories })

end Disk

structure Librrd where
  /-- the step and the definitions are well formed -/
  accepts : RrdCreate → Bool
  rrd_create_r : RrdCreate → Disk → Disk

namespace Disk

def fs (lib : Librrd) : FileSystem Disk where
  is_regular text s := decide (tokens '/' text ∈ s.files)
  mkdir := mkdir
  calloc _ := true
  rrd_create_r := lib.rrd_create_r
  stray_argument _ := true

/-! ## One directory -/

variable {s : Disk} {path dir : List CStr}

def file_path (rrd_dir : CStr) (c : Loaded_class × SQL_Collection) : List CStr :=
  tokens '/' (rrd_dir ++ c.2.rrd_filename)

def file_paths (config : Loaded_config) : List (List CStr) :=
  (collections_of config.collection_class).map (file_path config.rrd_dir)

def definition_argv (cls : Loaded_class) : Course Death (List CStr) := do
  let rra_str ← fill_rra_str cls
  tokenize (cls.oid_rows.length + cls.rra.length) rra_str

/-- The path of the file is absolute and not directly below the root, and librrd accepts its
definition. -/
structure Definable (lib : Librrd) (rrd_dir : CStr) (stack : Nat)
    (c : Loaded_class × SQL_Collection) : Prop where
  text : rrd_dir ++ c.2.rrd_filename = path_text (file_path rrd_dir c)
  below : 2 ≤ (file_path rrd_dir c).length
  stack : (file_path rrd_dir c).length ≤ stack
  ds : c.1.oid_rows ≠ []
  rra : c.1.rra ≠ []
  accepted : ∃ argv, definition_argv c.1 = .returned argv ∧
    lib.accepts ⟨rrd_dir ++ c.2.rrd_filename, c.1.interval, argv⟩ = true

/-- The files can be created, once their directories are there: no file stands where one needs
a directory, and no directory where one is to be. -/
structure Creatable (lib : Librrd) (config : Loaded_config) (stack : Nat) (s : Disk) : Prop where
  definable : ∀ c ∈ collections_of config.collection_class, Definable lib config.rrd_dir stack c
  apart : ∀ f ∈ file_paths config, ∀ g ∈ file_paths config, f <+: g → f = g
  file : ∀ f ∈ s.files, ∀ g ∈ file_paths config, f <+: g → f = g
  directory : ∀ g ∈ file_paths config, s.directories.present g = false

structure Grows (paths : List (List CStr)) (s s' : Disk) : Prop where
  files : ∃ new, s'.files = s.files ++ new ∧ new.Nodup ∧ ∀ f ∈ new, f ∈ paths ∧ f ∉ s.files
  kept : ∀ p, s.directories.present p = true → s'.directories.present p = true
  made : ∀ p, s'.directories.present p = true →
    s.directories.present p = true ∨ ∃ f ∈ paths, p <+: f.dropLast

theorem Grows.refl (paths : List (List CStr)) (s : Disk) : Grows paths s s :=
  ⟨⟨[], by simp⟩, fun _ h => h, fun _ h => .inl h⟩

theorem Grows.mem {paths : List (List CStr)} {s' : Disk} (h : Grows paths s s') {f : List CStr}
    (hf : f ∈ s.files) : f ∈ s'.files := by
  obtain ⟨new, hfiles, -, -⟩ := h.files
  rw [hfiles]
  exact List.mem_append_left _ hf

theorem Grows.trans {paths : List (List CStr)} {s₁ s₂ : Disk} (h₁ : Grows paths s s₁)
    (h₂ : Grows paths s₁ s₂) : Grows paths s s₂ := by
  obtain ⟨new₁, hfiles₁, hnodup₁, hnew₁⟩ := h₁.files
  obtain ⟨new₂, hfiles₂, hnodup₂, hnew₂⟩ := h₂.files
  refine ⟨⟨new₁ ++ new₂, by rw [hfiles₂, hfiles₁, List.append_assoc], ?_, fun f hf => ?_⟩, ?_, ?_⟩
  · rw [List.nodup_append]
    refine ⟨hnodup₁, hnodup₂, fun f hf g hg heq => (hnew₂ g hg).2 ?_⟩
    rw [hfiles₁, ← heq]
    exact List.mem_append_right _ hf
  · obtain hf | hf := List.mem_append.mp hf
    · exact hnew₁ f hf
    · exact ⟨(hnew₂ f hf).1, fun hold => (hnew₂ f hf).2 (h₁.mem hold)⟩
  · exact fun p hp => h₂.kept p (h₁.kept p hp)
  · intro p hp
    obtain hp | hnew := h₂.made p hp
    · exact h₁.made p hp
    · exact .inr hnew

/-- What was created does not stand in the way of another file. -/
theorem Creatable.grow {lib : Librrd} {config : Loaded_config} {stack : Nat} {s' : Disk}
    (h : Creatable lib config stack s) (hgrows : Grows (file_paths config) s s') :
    Creatable lib config stack s' := by
  refine ⟨h.definable, h.apart, fun f hf => ?_, fun g hg => ?_⟩
  · obtain ⟨new, hfiles, -, hnew⟩ := hgrows.files
    rw [hfiles] at hf
    obtain hold | hf := List.mem_append.mp hf
    · exact h.file f hold
    · exact h.apart f (hnew f hf).1
  · rw [Bool.eq_false_iff]
    intro hpresent
    obtain hold | ⟨f, hf, hwithin⟩ := hgrows.made _ hpresent
    · rw [h.directory g hg] at hold
      cases hold
    · -- a path that was made lies above a file, and is none
      obtain rfl : g = f := h.apart g hg f hf (hwithin.trans (List.dropLast_prefix f))
      obtain ⟨c, hc, rfl⟩ := List.mem_map.mp hf
      have hbelow := (h.definable c hc).below
      have hlength := hwithin.length_le
      rw [List.length_dropLast] at hlength
      omega

variable {lib : Librrd} {config : Loaded_config} {stack : Nat} {c : Loaded_class × SQL_Collection}

section Call

variable {d : Directories} {rrd : RrdCreate}

end Call

def loads (lib : Librrd) (stack : Nat) (config : Loaded_config) : Nat → Disk → Course Death Disk
  | 0, s => .returned s
  | n + 1, s => do
      let s ← create_missing_rrd_files (fs lib) stack config s
      loads lib stack config n s

def plain (c : RrdCreate) : Bool :=
  c.pdp_step ≠ 0 && c.argv.any ("DS:".toList.isPrefixOf ·) &&
    c.argv.any ("RRA:".toList.isPrefixOf ·)

end Disk

end SnappCollector.Config
