import RunnerKit.Identity
import RunnerKit.Path.Basic
/-!
This module contains what can go wrong in the library: rules that are broken and operations that
fail. Each cause has its wording, its category and some advice here and nowhere else.
-/

namespace RunnerKit

inductive Category where
  /-- the input is at fault -/
  | validation
  | notFound
  | internal
  deriving DecidableEq, Repr

inductive Violation where
  | invalidAppName (name reason : String)
  | invalidTemplate (reason : String)
  | emptyTemplate (id : String)
  | duplicatePath (path : String)
  | absolutePath (path : String)
  | unknownPlaceholder (key : String)
  | unterminatedPlaceholder (offset : Nat)
  | relativeBinDir (path : String)
  | missingField (field : String)
  deriving DecidableEq, Repr

namespace Violation

def message : Violation → String
  | invalidAppName name reason => "Invalid application name '" ++ name ++ "': " ++ reason
  | invalidTemplate reason => "Invalid template: " ++ reason
  | emptyTemplate id => "Template '" ++ id ++ "' has no files"
  | duplicatePath path => "Duplicate path in template: " ++ path
  | absolutePath path => "Absolute paths not allowed: " ++ path
  | unknownPlaceholder key => "Unknown placeholder '%\x7b" ++ key ++ "\x7d'"
  | unterminatedPlaceholder offset =>
    "Unterminated placeholder starting at byte " ++ toString offset
  | relativeBinDir path => "Install directory must be absolute: " ++ path
  | missingField field => "Required field missing: " ++ field

def suggestions : Violation → List String
  | invalidAppName name reason =>
    ["'" ++ name ++ "' cannot be used as an application name: " ++ reason,
     "Start with a letter or '_', then use letters, digits, or '_'",
     "Examples: MyRunner, notes_search, Calc2"]
  | unknownPlaceholder key =>
    ["'%\x7b" ++ key ++ "\x7d' is not a known placeholder",
     "Known placeholders: APPNAME, APPNAMELC, AUTHOR, EMAIL, CURRENT_YEAR, BINDIR"]
  | relativeBinDir path =>
    ["The session bus cannot start '" ++ path ++ "/...' without a full path",
     "Pass an absolute directory, e.g. --bindir ~/.cargo/bin"]
  | unterminatedPlaceholder _ => ["Close every '%\x7b' with a matching '\x7d'"]
  | emptyTemplate id =>
    ["Template '" ++ id ++ "' is corrupted",
     "Please report this issue or use a different template"]
  | _ => ["See documentation for more details"]

def category : Violation → Category
  | invalidTemplate _ | emptyTemplate _ | duplicatePath _ | absolutePath _ => .internal
  | _ => .validation

end Violation

def NameFault.violation (fault : NameFault) (text : String) : Violation :=
  .invalidAppName text fault.reason

inductive Failure where
  | templateResolution (reason : String)
  | rendering (reason : String)
  | filesystem (path : Path) (reason : String)
  | storeLocked
  | projectExists (path : Path)
  | bus (operation reason : String)
  | output (reason : String)
  deriving DecidableEq, Repr

def nameRequest : String := "name request"

namespace Failure

def message : Failure → String
  | templateResolution reason => "Template resolution failed: " ++ reason
  | rendering reason => "Template rendering failed: " ++ reason
  | filesystem path reason => "Filesystem error at " ++ path.display ++ ": " ++ reason
  | storeLocked => "Template store error"
  | projectExists path => "Project already exists at " ++ path.display
  | bus operation reason => "Bus " ++ operation ++ " failed: " ++ reason
  | output reason => "Run output failed: " ++ reason

def suggestions : Failure → List String
  | templateResolution reason =>
    ["Resolution failed: " ++ reason, "Try: dbusrunner list to see available templates"]
  | filesystem path _ =>
    ["Failed to access: " ++ path.display, "Check that you have write permissions",
     "Ensure the parent directory exists"]
  | storeLocked => ["The template store is locked", "Try again in a moment"]
  | projectExists path =>
    ["Directory already exists: " ++ path.display, "Use --force to overwrite (destructive)",
     "Choose a different project name"]
  | bus operation _ =>
    if operation = nameRequest then
      ["Another process already owns this bus name",
       "Stop the other runner or pick a different --name"]
    else ["Check that a session bus is running (DBUS_SESSION_BUS_ADDRESS)"]
  | rendering _ | output _ => ["Check the error details above"]

def category : Failure → Category
  | templateResolution _ => .notFound
  | projectExists _ => .validation
  | _ => .internal

end Failure

inductive Error where
  | violation (cause : Violation)
  | failure (cause : Failure)
  deriving DecidableEq, Repr

namespace Error

def cause : Error → String
  | violation v => v.message
  | failure f => f.message

def message : Error → String
  | violation v => "Domain error: " ++ v.message
  | failure f => "Application error: " ++ f.message

def suggestions : Error → List String
  | violation v => v.suggestions
  | failure f => f.suggestions

def category : Error → Category
  | violation v => v.category
  | failure f => f.category

end Error

def liftViolation {α : Type} : Except Violation α → Except Error α
  | .ok a => .ok a
  | .error v => .error (.violation v)

end RunnerKit
