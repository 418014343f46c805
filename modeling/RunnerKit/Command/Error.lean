import RunnerKit.Error
import RunnerKit.Log
import RunnerKit.Terminal.Style
/-!
This module contains the errors that commands end with, the reports that the user gets of them and
the exit codes that they stand for.
-/

namespace RunnerKit

inductive CommandError where
  | invalidInput (message : String)
  | projectExists (path : Path)
  /-- with the causes of its source after that -/
  | config (message : String) (source? : Option String) (causes : List String := [])
  | library (e : Error)
  | io (message source : String)
  | cancelled
  deriving DecidableEq, Repr

inductive CommandCategory where
  | user
  | notFound
  | configuration
  | internal
  deriving DecidableEq, Repr

def CommandCategory.exitCode : CommandCategory → UInt8
  | .user => 2
  | .notFound => 3
  | .configuration => 4
  | .internal => 1

namespace CommandError

def ofSystem (cause : String) : CommandError := .io cause cause

def message : CommandError → String
  | invalidInput message => "Invalid input: " ++ message
  | projectExists path => "Project already exists at " ++ path.display
  | config message .. => "Configuration error: " ++ message
  | library e => e.message
  | io message _ => "I/O error: " ++ message
  | cancelled => "Operation cancelled"

def sources : CommandError → List String
  | config _ source? causes => source?.elim [] (· :: causes)
  | library e => [e.cause]
  | io _ source => [source]
  | invalidInput _ | projectExists _ | cancelled => []

def suggestions (configPath : Path) : CommandError → List String
  | invalidInput message =>
    ["Check your input: " ++ message, "Use --help for usage information"]
  | projectExists path =>
    ["The directory '" ++ path.display ++ "' already exists",
     "Use --force to overwrite (destructive)", "Choose a different application name"]
  | config message .. =>
    ["Configuration issue: " ++ message, "Check your config file at " ++ configPath.display,
     "Use 'dbusrunner init --force' to write a default config"]
  | library e => e.suggestions
  | io message _ =>
    ["I/O operation failed: " ++ message, "Check file permissions",
     "Ensure the parent directory exists"]
  | cancelled => ["Operation was cancelled", "No changes were made"]

def category : CommandError → CommandCategory
  | invalidInput _ | projectExists _ | cancelled => .user
  | config .. => .configuration
  | library e =>
    match e.category with
    | .validation => .user
    | .notFound => .notFound
    | .internal => .internal
  | io .. => .internal

def exitCode (e : CommandError) : UInt8 := e.category.exitCode

def indented (lines : List String) : String :=
  String.join (lines.map fun line => "  " ++ line ++ "\n")

def plain (configPath : Path) (verbose : Bool) (e : CommandError) : String :=
  let causes := if verbose then e.sources.map ("  Caused by: " ++ · ++ "\n") else []
  "\nError: " ++ e.message ++ "\n" ++ String.join causes ++
    "\nSuggestions:\n" ++ indented (e.suggestions configPath) ++
    (if verbose then "" else "\nUse -v / --verbose for more details.\n")

open Style in
def coloured (configPath : Path) (verbose : Bool) (e : CommandError) : String :=
  let cause (source : String) := "\n  " ++ dimmed "→" ++ " " ++ dimmed source ++ "\n"
  let causes := if verbose then e.sources.map cause else []
  "\n" ++ bold (red "✗") ++ " " ++ bold (red "Error:") ++ "\n\n  " ++ red e.message ++ "\n" ++
    String.join causes ++
    "\n" ++ bold (yellow "Suggestions:") ++ "\n" ++ indented (e.suggestions configPath) ++
    (if verbose then ""
     else "\n" ++ blue "ℹ" ++ " " ++ dimmed "Use -v / --verbose for more details." ++ "\n")

def events (e : CommandError) : List Event :=
  let report (level : Level) (message : String) : Event := { level, message, area := .program }
  let first := match e.category with
    | .user => report .warn ("User error: " ++ e.message)
    | .notFound => report .warn ("Not found: " ++ e.message)
    | .configuration => report .error ("Configuration error: " ++ e.message)
    | .internal => report .error ("Internal error: " ++ e.message)
  match e.sources with
  | source :: _ => [first, report .debug ("Caused by: " ++ source)]
  | [] => [first]

end CommandError

end RunnerKit
