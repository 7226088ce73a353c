import SnappCollector.Config.InitConfig

/-!
# One reload

The body of the loop in `main`, behind the wait: a new configuration is loaded and
initialized.  If that fails it is deleted, else it takes the place of the current one.
What the process has outlives a call that fails or does not end.
-/

namespace SnappCollector.Daemon

open CLib Data SnappCollector.Config

variable {σ : Type}

/-- A `Snapp_config` object, with the threads of the classes that are initialized. -/
structure Configuration where
  address : Nat
  collectors : List Threads
deriving DecidableEq

structure Process where
  current_config : Configuration
  new_config : Option Configuration
deriving DecidableEq

structure ReloadAnswers (σ : Type) where
  /-- what `new` returns -/
  address : Nat
  load : LoadAnswers
  files : σ
  init : InitAnswers σ
  /-- the workers of a class of the current configuration can be joined -/
  joined : Nat → Bool

/-- The destructors of the classes from number `i` on: whether they come back, and the
classes that are left.  `finalize` cancels the main thread before it joins the workers. -/
def finalize_classes (joined : Nat → Bool) : Nat → List Threads → Bool × List Threads
  | _, [] => (true, [])
  | i, threads :: rest =>
      if joined i then finalize_classes joined (i + 1) rest
      else (false, { threads with main_thread := false } :: rest)

def delete_new (joined : Nat → Bool) (new_config : Configuration) (p : Process) :
    Course Death Bool × Process :=
  let (deleted, left) := finalize_classes joined 0 new_config.collectors
  if deleted then (.returned false, { p with new_config := none })
  else (.pending, { p with new_config := some { new_config with collectors := left } })

def install_new (joined : Nat → Bool) (new_config : Configuration) (p : Process) :
    Course Death Bool × Process :=
  let (deleted, left) := finalize_classes joined 0 p.current_config.collectors
  if deleted then (.returned true, ⟨new_config, none⟩)
  else (.pending, ⟨{ p.current_config with collectors := left }, some new_config⟩)

/-- The value says whether the new configuration was installed. -/
def reload (answers : ReloadAnswers σ) (fuel : Nat) (p : Process) : Course Death Bool × Process :=
  let new_config : Configuration := ⟨answers.address, []⟩
  let p := { p with new_config := some new_config }
  match load_config answers.load fuel with
  | .died death => (.died death, p)
  | .pending => (.pending, p)
  | .failed => delete_new answers.joined new_config p
  | .returned config =>
      match init_config answers.init fuel config answers.files with
      | .died death => (.died death, p)
      | .pending => (.pending, p)
      | .failed => delete_new answers.joined new_config p
      | .returned collectors => install_new answers.joined { new_config with collectors } p

end SnappCollector.Daemon
