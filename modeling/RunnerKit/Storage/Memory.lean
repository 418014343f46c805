import Std.Data.TreeMap
import Std.Data.TreeSet
import RunnerKit.Storage.Basic
/-!
This module contains the storage in memory. It looks at the components of paths only; of their
spelling it keeps the one that a file was first written under.
-/

namespace RunnerKit

structure MemoryFile where
  /-- the path as it was spelled when the file was made -/
  spelling : Path
  content : String
  deriving DecidableEq, Repr

structure Memory where
  files : Std.TreeMap (List Component) MemoryFile := ∅
  directories : Std.TreeSet (List Component) := ∅
  executables : Std.TreeSet (List Component) := ∅

namespace Memory

instance : Inhabited Memory := ⟨{}⟩

def read? (s : Memory) (path : Path) : Option String :=
  s.files[path.components]?.map MemoryFile.content

def isDirectory (s : Memory) (path : Path) : Bool := s.directories.contains path.components

def isExecutable (s : Memory) (path : Path) : Bool := s.executables.contains path.components

def holds (s : Memory) (path : Path) : Bool :=
  s.files.contains path.components || s.isDirectory path

def toList (s : Memory) : List MemoryFile := s.files.values

def nonemptyPrefixes {α : Type} : List α → List (List α)
  | [] => []
  | a :: as => [a] :: (nonemptyPrefixes as).map (a :: ·)

def createDirAll (s : Memory) (path : Path) : Memory :=
  { s with directories := s.directories.insertMany (nonemptyPrefixes path.components) }

/--
Whether the directory that a file at `path` needs is there. The empty parent needs none.
-/
def hasParent (s : Memory) (path : Path) : Bool :=
  match path.parent? with
  | none => true
  | some parent => parent.isEmpty || s.isDirectory parent

/--
Writes a file. A file that is there already keeps its spelling.
-/
def writeFile (s : Memory) (path : Path) (content : String) : Except Error Memory :=
  if s.hasParent path then
    let spelling := match s.files[path.components]? with
      | some file => file.spelling
      | none => path
    .ok { s with files := s.files.insert path.components { spelling, content } }
  else .error (.failure (.filesystem path "Parent directory does not exist"))

def setExecutable (s : Memory) (path : Path) : Memory :=
  { s with executables := s.executables.insert path.components }

def removeDirAll (s : Memory) (path : Path) : Memory :=
  let outside (place : List Component) : Bool := !path.components.isPrefixOf place
  { files := s.files.filter fun place _ => outside place
    directories := s.directories.filter outside
    executables := s.executables.filter outside }

def apply (s : Memory) : Call → Except Error Unit × Memory
  | .createDirAll path => (.ok (), s.createDirAll path)
  | .writeFile path content =>
    match s.writeFile path content with
    | .ok s' => (.ok (), s')
    | .error e => (.error e, s)
  | .setExecutable path => (.ok (), s.setExecutable path)
  | .removeDirAll path => (.ok (), s.removeDirAll path)

def filesystem : Filesystem (StateM Memory) := .ofState apply holds

end Memory

end RunnerKit
