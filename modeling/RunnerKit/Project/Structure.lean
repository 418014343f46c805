import RunnerKit.Error
/-!
This module contains generated projects before they are written: a root and the files below it.
-/

namespace RunnerKit

structure ProjectFile where
  path : Path
  content : String
  executable : Bool
  deriving DecidableEq, Repr

structure ProjectStructure where
  root : Path
  files : List ProjectFile := []
  deriving DecidableEq, Repr

namespace ProjectStructure

def add (s : ProjectStructure) (file : ProjectFile) : ProjectStructure :=
  { s with files := s.files ++ [file] }

def fileCount (s : ProjectStructure) : Nat := s.files.length

def checkFiles (seen : List String) : List ProjectFile → Except Violation Unit
  | [] => .ok ()
  | file :: files =>
    if file.path.display ∈ seen then .error (.duplicatePath file.path.display)
    else if file.path.isAbsolute then .error (.absolutePath file.path.display)
    else checkFiles (file.path.display :: seen) files

def validate (s : ProjectStructure) : Except Violation Unit :=
  if s.files.isEmpty then .error (.invalidTemplate "Project structure is empty")
  else checkFiles [] s.files

def location (s : ProjectStructure) (file : ProjectFile) : Path := s.root.join file.path

end ProjectStructure

end RunnerKit
