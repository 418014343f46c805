import RunnerKit.Storage.Basic
/-!
This module contains a storage that records the calls it gets and fails the ones it was told to
fail. Other calls go to the storage behind it.
-/

namespace RunnerKit

inductive Entry where
  | call (call : Call)
  | asked (path : Path) (answer : Bool)
  deriving DecidableEq, Repr

inductive Method where
  | createDirAll | writeFile | setExecutable | removeDirAll
  deriving DecidableEq, Repr

def Call.method : Call → Method
  | .createDirAll _ => .createDirAll
  | .writeFile .. => .writeFile
  | .setExecutable _ => .setExecutable
  | .removeDirAll _ => .removeDirAll

structure PlannedFault where
  method : Method
  number : Nat
  reason : String
  deriving DecidableEq, Repr

structure Recorder (σ : Type) where
  inner : σ
  faults : List PlannedFault
  entries : List Entry := []

namespace Recorder

def count {σ : Type} (r : Recorder σ) (method : Method) : Nat :=
  r.entries.countP fun
    | Entry.call call => decide (call.method = method)
    | Entry.asked .. => false

def fault? {σ : Type} (r : Recorder σ) (call : Call) : Option PlannedFault :=
  r.faults.find? fun fault => fault.method = call.method ∧ fault.number = r.count call.method

/--
Records a call; then fails it without doing it, or has it done.
-/
def filesystem {σ : Type} (fs : Filesystem (StateM σ)) : Filesystem (StateM (Recorder σ)) where
  perform call := fun r =>
    let r := { r with entries := r.entries ++ [Entry.call call] }
    match r.fault? call with
    | some fault => (.error (.failure (.filesystem call.path fault.reason)), r)
    | none =>
      let (result, inner) := fs.perform call r.inner
      (result, { r with inner })
  holds path := fun r =>
    let (answer, inner) := fs.holds path r.inner
    (answer, { r with inner, entries := r.entries ++ [Entry.asked path answer] })

end Recorder

end RunnerKit
