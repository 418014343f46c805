import RunnerKit.Project.Render
import RunnerKit.Storage.Basic
import RunnerKit.Template.Store
/-!
This module contains the generation of projects in a storage. A project is rendered completely
before anything is written, and when a write fails the project is removed again.
-/

namespace RunnerKit

def ProjectStructure.fileCalls (project : ProjectStructure) (file : ProjectFile) : List Call :=
  let path := project.location file
  let parent := match path.parent? with
    | some parent => [.createDirAll parent]
    | none => []
  let mark := if file.executable then [.setExecutable path] else []
  parent ++ .writeFile path file.content :: mark

def ProjectStructure.writeCalls (project : ProjectStructure) : List Call :=
  .createDirAll project.root :: project.files.flatMap project.fileCalls

structure ScaffoldRequest where
  template : String
  context : Context
  root : Path

def Store.plan (store : Store) (request : ScaffoldRequest) : Except Error ProjectStructure := do
  let template ← store.get request.template
  template.render request.context request.root

def Store.planEvents (store : Store) (request : ScaffoldRequest) : List Event :=
  match store.get request.template with
  | .ok template => template.renderEvents request.context
  | .error _ => []

namespace Scaffold

def rendered (project : ProjectStructure) : Event :=
  { level := .info, message := "Template rendered",
    fields := [("files", toString project.fileCount)] }

def removing : Event := { level := .warn, message := "Removing existing project directory" }

def rollingBack : Event := { level := .warn, message := "Write failed, attempting rollback" }

def rollbackFailed (e : Error) (root : Path) : Event :=
  { level := .warn, message := "Rollback failed",
    fields := [("error", e.message), ("path", root.display)] }

def rolledBack : Event := { level := .info, message := "Rollback successful" }

def completed : Event := { level := .info, message := "Scaffold completed successfully" }

variable {m : Type → Type} [Monad m] (fs : Filesystem m) (log : Event → m Unit)

/--
Removes what a failed write left behind. Whether that works has no say in the result.
-/
def rollback (root : Path) : m Unit := do
  match ← fs.perform (.removeDirAll root) with
  | .ok _ => log rolledBack
  | .error e => log (rollbackFailed e root)

def write (project : ProjectStructure) : m (Except Error Unit) := do
  match ← fs.performAll project.writeCalls with
  | .ok _ => return .ok ()
  | .error e =>
    log rollingBack
    rollback fs log project.root
    return .error e

def clear (root : Path) (overwrite : Bool) : m (Except Error Unit) := do
  if ← fs.holds root then
    if overwrite then
      log removing
      fs.perform (.removeDirAll root)
    else return .error (.failure (.projectExists root))
  else return .ok ()

def run (store : Store) (request : ScaffoldRequest) (overwrite : Bool) :
    m (Except Error ProjectStructure) := do
  (store.planEvents request).forM log
  match store.plan request with
  | .error e => return .error e
  | .ok project =>
    log (rendered project)
    match ← clear fs log project.root overwrite with
    | .error e => return .error e
    | .ok _ =>
      match ← write fs log project with
      | .error e => return .error e
      | .ok _ =>
        log completed
        return .ok project

end Scaffold

end RunnerKit
