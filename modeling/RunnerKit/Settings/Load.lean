import RunnerKit.Path.Basic
import RunnerKit.Settings.Basic
import RunnerKit.Settings.Environment
import RunnerKit.Settings.Json
import RunnerKit.Settings.Key
import RunnerKit.Settings.Toml.Reader
/-!
This module contains the loading of the settings: the defaults, the files over them and the
environment over these.
-/

namespace RunnerKit

namespace Settings

inductive FileFormat where
  | toml
  | json
  | yaml
  | ini
  | ron
  | json5
  deriving DecidableEq, Repr

namespace FileFormat

def all : List FileFormat := [toml, json, yaml, ini, ron, json5]

def extensions : FileFormat → List Name
  | toml => [utf8Bytes "toml"]
  | json => [utf8Bytes "json"]
  | yaml => [utf8Bytes "yaml", utf8Bytes "yml"]
  | ini => [utf8Bytes "ini"]
  | ron => [utf8Bytes "ron"]
  | json5 => [utf8Bytes "json5"]

def ofPath? (path : Path) : Option FileFormat :=
  path.extension?.bind fun name => all.find? (·.extensions.contains name)

def appended? (extension : Name) (path : Path) : Option Path :=
  path.fileName?.map fun _ =>
    let trimmed := Path.joinSlashes (Path.dropIgnoredEnd (Path.splitSlashes path.bytes))
    ⟨trimmed ++ Path.dot :: extension⟩

end FileFormat

inductive Obstacle where
  | missing (path : Path)
  /-- a file whose name says no format -/
  | unregistered (path : Path)
  | malformed (path : Path) (format : FileFormat) (text : String)
  | misfit (entries : Entries)

/--
The part of the library for settings that is not written here: its readers of the formats that this
program does not write itself, the order in which it tries the formats beside a file that is not
there, which may be another for each run, and what it says of an obstacle, with the causes of that
after it.
-/
structure Backend where
  yaml? : List Char → Option Entries := fun _ => none
  ini? : List Char → Option Entries := fun _ => none
  ron? : List Char → Option Entries := fun _ => none
  json5? : List Char → Option Entries := fun _ => none
  tried : List FileFormat := FileFormat.all
  causes : Obstacle → List String := fun _ => []

namespace Backend

variable (backend : Backend)

def read? : FileFormat → List Char → Option Entries
  | .toml => Toml.read?
  | .json => Json.read?
  | .yaml => backend.yaml?
  | .ini => backend.ini?
  | .ron => backend.ron?
  | .json5 => backend.json5?

def attempts : List (FileFormat × Name) :=
  backend.tried.flatMap fun format => format.extensions.map (format, ·)

end Backend

inductive LoadFault where
  | unreadable
  | invalid
  deriving DecidableEq, Repr

def LoadFault.message : LoadFault → String
  | .unreadable => "Failed to read configuration"
  | .invalid => "Invalid configuration"

structure LoadError where
  fault : LoadFault
  causes : List String
  deriving DecidableEq, Repr

namespace LoadError

def message (e : LoadError) : String := e.fault.message

def chain (e : LoadError) : String := ": ".intercalate (e.message :: e.causes)

end LoadError

def localPath : Path := .ofString ".dbusrunner.toml"

/--
The file of the user. Without a home there is none, and that of this directory has to do.
-/
def userPath (env : Environment) : Home → Path
  | none => localPath
  | some home =>
    let directory := (env.directory? "XDG_CONFIG_HOME").getD (home.join (.ofString ".config"))
    directory.join (.ofString "dbusrunner/config.toml")

def withoutMark (text : String) : List Char :=
  match text.toList with
  | '\uFEFF' :: cs => cs
  | cs => cs

section

variable {m : Type → Type} [Monad m] (backend : Backend) (read? : Path → m (Option String))

def fileBeside? (path : Path) (format : FileFormat) (extension : Name) :
    m (Option (Path × FileFormat × String)) := do
  match FileFormat.appended? extension path with
  | none => return none
  | some beside => return (← read? beside).map (beside, format, ·)

/--
The configuration file that a path leads to: a file with that very name, which then has to say its
format, or else one with an extension after it.
-/
def findFile (path : Path) : m (Except Obstacle (Path × FileFormat × String)) := do
  match ← read? path with
  | some text =>
    match FileFormat.ofPath? path with
    | some format => return .ok (path, format, text)
    | none => return .error (.unregistered path)
  | none =>
    match ← backend.attempts.findSomeM? fun (format, extension) =>
      fileBeside? read? path format extension with
    | some found => return .ok found
    | none => return .error (.missing path)

/--
The layer of a file. A file that is not found is as good as an empty one unless it is required.
-/
def fileLayer (required : Bool) (path : Path) : m (Except LoadError Entries) := do
  match ← findFile backend read? path with
  | .error obstacle =>
    return if required then .error ⟨.unreadable, backend.causes obstacle⟩ else .ok []
  | .ok (found, format, text) =>
    match backend.read? format (withoutMark text) with
    | some entries => return .ok entries
    | none => return .error ⟨.unreadable, backend.causes (.malformed found format text)⟩

def fileLayers (required : Bool) : List Path → m (Except LoadError (List Entries))
  | [] => return .ok []
  | path :: paths => do
    match ← fileLayer backend read? required path with
    | .error e => return .error e
    | .ok layer => return (← fileLayers required paths).map (layer :: ·)

def ofLayers (layers : List Entries) : Except LoadError Settings :=
  let entries := layers.foldl Entries.setAll (Settings.toEntries {})
  match ofEntries? entries with
  | some settings => .ok settings
  | none => .error ⟨.invalid, backend.causes (.misfit entries)⟩

end

/--
Loads the settings. A file that the user names is the only one and has to be there; otherwise the
file of the user is used, and the file of this directory over it.
-/
def load {m : Type → Type} [Monad m] (read? : Path → m (Option String)) (env : Environment)
    (home : Home) (path? : Option Path) (backend : Backend := {}) :
    m (Except LoadError Settings) := do
  let layers ← match path? with
    | some path => fileLayers backend read? true [path]
    | none => fileLayers backend read? false [userPath env home, localPath]
  return layers.bind fun layers => ofLayers backend (layers ++ [ofEnvironment env])

end Settings

end RunnerKit
