import RunnerKit.Error
/-!
This module contains what the library asks of a place where files are kept. A storage answers calls
one after the other, in any monad; nothing else is known about it.
-/

namespace RunnerKit

inductive Call where
  | createDirAll (path : Path)
  | writeFile (path : Path) (content : String)
  | setExecutable (path : Path)
  | removeDirAll (path : Path)
  deriving DecidableEq, Repr

def Call.path : Call → Path
  | .createDirAll path | .writeFile path _ | .setExecutable path | .removeDirAll path => path

def Call.refusal (call : Call) (cause : String) : Error :=
  let operation := match call with
    | .createDirAll _ => "create directory"
    | .writeFile .. => "write file"
    | .setExecutable _ => "get metadata"
    | .removeDirAll _ => "remove directory"
  .failure (.filesystem call.path ("Failed to " ++ operation ++ ": " ++ cause))

structure Filesystem (m : Type → Type) where
  perform : Call → m (Except Error Unit)
  holds : Path → m Bool

namespace Filesystem

def performAll {m : Type → Type} [Monad m] (fs : Filesystem m) : List Call → m (Except Error Unit)
  | [] => pure (.ok ())
  | call :: calls => do
    match ← fs.perform call with
    | .ok _ => fs.performAll calls
    | .error e => return .error e

def lift {m n : Type → Type} (f : {α : Type} → m α → n α) (fs : Filesystem m) : Filesystem n where
  perform call := f (fs.perform call)
  holds path := f (fs.holds path)

def ofState {σ : Type} (apply : σ → Call → Except Error Unit × σ) (holds : σ → Path → Bool) :
    Filesystem (StateM σ) where
  perform call := fun s => apply s call
  holds path := fun s => (holds s path, s)

end Filesystem

end RunnerKit
