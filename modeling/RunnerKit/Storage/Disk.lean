import Std.Data.TreeMap
import RunnerKit.Storage.Basic
/-!
This module contains the storage on a disk: a tree of directories and files, in which paths are
walked name by name. A call may change the tree and fail all the same.
-/

namespace RunnerKit

inductive SystemFault where
  | noEntry
  | busy
  | exists
  | notDirectory
  | isDirectory
  | invalidArgument
  | nameTooLong
  | notEmpty
  | nulInName
  deriving DecidableEq, Repr

def SystemFault.text : SystemFault → String
  | .noEntry => "No such file or directory (os error 2)"
  | .busy => "Device or resource busy (os error 16)"
  | .exists => "File exists (os error 17)"
  | .notDirectory => "Not a directory (os error 20)"
  | .isDirectory => "Is a directory (os error 21)"
  | .invalidArgument => "Invalid argument (os error 22)"
  | .nameTooLong => "File name too long (os error 36)"
  | .notEmpty => "Directory not empty (os error 39)"
  | .nulInName => "file name contained an unexpected NUL byte"

abbrev Location := List Name

inductive Node where
  | directory
  | file (content : String) (executable : Bool)
  deriving DecidableEq, Repr

structure Disk where
  nodes : Std.TreeMap Location Node := ∅
  current : Location := []

namespace Disk

instance : Inhabited Disk := ⟨{}⟩

def maxNameBytes : Nat := 255

def maxPathBytes : Nat := 4095

/--
What is at a location. The root is always there.
-/
def node? (d : Disk) (location : Location) : Option Node :=
  if location.isEmpty then some .directory else d.nodes[location]?

def put (d : Disk) (location : Location) (node : Node) : Disk :=
  { d with nodes := d.nodes.insert location node }

/--
What a path leads to: a directory that it names by dots or as the root, or a name in a directory,
which may or may not be there. A slash after the name asks for a directory.
-/
inductive Target where
  | place (directory : Location) (dots : Name)
  | entry (directory : Location) (name : Name) (slash : Bool)
  deriving DecidableEq, Repr

def stay : Name := [Path.dot]

def up : Name := [Path.dot, Path.dot]

/--
Whether names can be looked up from a location. The current directory leads to its parent even once
it is gone.
-/
def leadsTo (d : Disk) (location : Location) (name : Name) : Except SystemFault Unit :=
  match d.node? location with
  | some .directory => .ok ()
  | some (.file ..) => .error .notDirectory
  | none => if location = d.current ∧ (name = stay ∨ name = up) then .ok () else .error .noEntry

def walk (d : Disk) (slash : Bool) (location : Location) : List Name → Except SystemFault Target
  | [] => .ok (.place location [])
  | name :: names =>
    match d.leadsTo location name with
    | .error fault => .error fault
    | .ok _ =>
      if names.isEmpty then
        if name = stay then .ok (.place location name)
        else if name = up then .ok (.place location.dropLast name)
        else if maxNameBytes < name.length then .error .nameTooLong
        else .ok (.entry location name slash)
      else if name = stay then d.walk slash location names
      else if name = up then d.walk slash location.dropLast names
      else if maxNameBytes < name.length then .error .nameTooLong
      else d.walk slash (location ++ [name]) names

def target (d : Disk) (path : Path) : Except SystemFault Target :=
  if path.bytes.contains 0 then .error .nulInName
  else if path.isEmpty then .error .noEntry
  else if maxPathBytes < path.bytes.length then .error .nameTooLong
  else
    let names := (Path.splitSlashes path.bytes).filter (!·.isEmpty)
    d.walk (path.bytes.getLast? == some Path.slash)
      (if path.isAbsolute then [] else d.current) names

def find (d : Disk) (path : Path) : Except SystemFault (Location × Node) := do
  match ← d.target path with
  | .place location _ =>
    match d.node? location with
    | some node => .ok (location, node)
    | none => if location = d.current then .ok (location, .directory) else .error .noEntry
  | .entry directory name slash =>
    match d.node? (directory ++ [name]) with
    | none => .error .noEntry
    | some (.file content executable) =>
      if slash then .error .notDirectory
      else .ok (directory ++ [name], .file content executable)
    | some .directory => .ok (directory ++ [name], .directory)

def holds (d : Disk) (path : Path) : Bool := (d.find path).toBool

def isDirectory (d : Disk) (path : Path) : Bool :=
  match d.find path with
  | .ok (_, .directory) => true
  | _ => false

def read? (d : Disk) (path : Path) : Option String :=
  match d.find path with
  | .ok (_, .file content _) => some content
  | _ => none

def makeDir (d : Disk) (path : Path) : Except SystemFault Disk := do
  match ← d.target path with
  | .place .. => .error .exists
  | .entry directory name _ =>
    match d.node? (directory ++ [name]) with
    | some _ => .error .exists
    | none => .ok (d.put (directory ++ [name]) .directory)

def ancestors (path : Path) : List Path :=
  let rec go (path : Path) : Nat → List Path
    | 0 => [path]
    | n + 1 =>
      match path.parent? with
      | none => [path]
      | some parent => path :: go parent n
  go path path.bytes.length

/--
The outermost of some directories that are missing, and those inside it. The search ends at the
first that is there or can be made.
-/
def missing (d : Disk) : List Path → Except SystemFault (List Path × Disk)
  | [] => .ok ([], d)
  | path :: parents =>
    if path.isEmpty ∨ path.parent? = none then .ok ([], d)
    else match d.makeDir path with
      | .ok d => .ok ([], d)
      | .error .noEntry => (d.missing parents).map fun (paths, d) => (path :: paths, d)
      | .error .exists => if d.isDirectory path then .ok ([], d) else .error .exists
      | .error fault => .error fault

def makeAll (d : Disk) : List Path → Except SystemFault Unit × Disk
  | [] => (.ok (), d)
  | path :: parents =>
    match d.makeAll parents with
    | (.error fault, d) => (.error fault, d)
    | (.ok _, d) =>
      match d.makeDir path with
      | .ok d => (.ok (), d)
      | .error fault =>
        if fault = .exists ∧ d.isDirectory path then (.ok (), d) else (.error fault, d)

def createDirAll (d : Disk) (path : Path) : Except SystemFault Unit × Disk :=
  match d.missing (ancestors path) with
  | .error fault => (.error fault, d)
  | .ok (paths, d) => d.makeAll paths

/--
Writes a file. A file that is there keeps its permissions.
-/
def writeFile (d : Disk) (path : Path) (content : String) : Except SystemFault Disk := do
  match ← d.target path with
  | .place .. => .error .isDirectory
  | .entry directory name slash =>
    if slash then .error .isDirectory
    else match d.node? (directory ++ [name]) with
      | some .directory => .error .isDirectory
      | some (.file _ executable) => .ok (d.put (directory ++ [name]) (.file content executable))
      | none => .ok (d.put (directory ++ [name]) (.file content false))

def setExecutable (d : Disk) (path : Path) : Except SystemFault Disk := do
  match ← d.find path with
  | (_, .directory) => .ok d
  | (location, .file content _) => .ok (d.put location (.file content true))

def clear (d : Disk) (location : Location) : Disk :=
  { d with nodes := d.nodes.filter fun place _ => !location.isPrefixOf place || place == location }

/--
Removes a directory and everything below it. What is below goes first, so it is gone even where the
directory itself cannot be removed by this path.
-/
def removeDirAll (d : Disk) (path : Path) : Except SystemFault Unit × Disk :=
  match d.find path with
  | .error fault => (.error fault, d)
  | .ok (_, .file ..) => (.error .notDirectory, d)
  | .ok (location, .directory) =>
    let cleared := d.clear location
    match cleared.target path with
    | .error .noEntry => (.ok (), cleared)
    | .error fault => (.error fault, cleared)
    | .ok (.place _ dots) =>
      let fault :=
        if dots = stay then .invalidArgument else if dots = up then .notEmpty else .busy
      (.error fault, cleared)
    | .ok (.entry ..) => (.ok (), { cleared with nodes := cleared.nodes.erase location })

private def settle (d : Disk) : Except SystemFault Disk → Except SystemFault Unit × Disk
  | .ok d => (.ok (), d)
  | .error fault => (.error fault, d)

def attempt (d : Disk) : Call → Except SystemFault Unit × Disk
  | .createDirAll path => d.createDirAll path
  | .writeFile path content => d.settle (d.writeFile path content)
  | .setExecutable path => d.settle (d.setExecutable path)
  | .removeDirAll path => d.removeDirAll path

def apply (d : Disk) (call : Call) : Except Error Unit × Disk :=
  let (result, d) := d.attempt call
  (result.mapError fun fault => call.refusal fault.text, d)

def filesystem : Filesystem (StateM Disk) := .ofState apply holds

def toList (d : Disk) : List (Location × Node) :=
  (d.nodes.toList.filter fun (place, _) => d.current.isPrefixOf place && place != d.current).map
    fun (place, node) => (place.drop d.current.length, node)

end Disk

end RunnerKit
