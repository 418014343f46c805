import RunnerKit.Binary64.Nearest
import RunnerKit.CommandLine.Arguments
/-!
This module contains the grammar of the command line: the commands with their names, and the options
and positional arguments of each.
-/

namespace RunnerKit

namespace CommandLine

inductive Place where
  | root
  | serve | new | list | init | completions
  | config | configGet | configList | configPath
  deriving DecidableEq, Repr

namespace Place

def children : Place → List (List String × Place)
  | .root =>
    [(["serve", "s"], .serve), (["new", "n"], .new), (["list", "ls"], .list), (["init"], .init),
     (["completions"], .completions), (["config"], .config)]
  | .config => [(["get"], .configGet), (["list"], .configList), (["path"], .configPath)]
  | _ => []

def child? (place : Place) (word : String) : Option Place :=
  (place.children.find? (·.1.contains word)).map (·.2)

/--
Whether a place wants one of its commands to be named. Such a place has a help command besides.
-/
def needsChild (place : Place) : Bool := !place.children.isEmpty

end Place

inductive Key where
  | verbose | quiet | noColour | config | outputFormat
  | name | scopedPath
  | template | author | email | year | binDir | yes | force | dryRun
  | format
  | isLocal
  | shell
  | setting
  deriving DecidableEq, Repr

inductive ValueKind where
  | text
  | path
  | year
  | outputFormat
  | listFormat
  | shell
  deriving DecidableEq, Repr

inductive Takes where
  | nothing
  /-- nothing, and it may be repeated -/
  | count
  | value (kind : ValueKind)
  deriving DecidableEq, Repr

inductive Value where
  | on (flag : Bool)
  | count (times : Nat)
  | text (text : String)
  | path (path : Path)
  | year (year : Int)
  | outputFormat (format : OutputFormat)
  | listFormat (format : ListFormat)
  | shell (shell : Shell)
  deriving DecidableEq, Repr

/--
The largest count of an argument that may be repeated. More of it changes nothing.
-/
def maxCount : Nat := 255

def ValueKind.read (kind : ValueKind) (text : String) : Except UsageFault Value :=
  let orInvalid {α : Type} (make : α → Value) : Option α → Except UsageFault Value
    | some a => .ok (make a)
    | none => .error .invalidValue
  match kind with
  | .text => .ok (.text text)
  | .path => if text.isEmpty then .error .invalidValue else .ok (.path (.ofString text))
  | .year =>
    match readInteger? text.toList with
    | some n => if -0x80000000 ≤ n ∧ n < 0x80000000 then .ok (.year n) else .error .refusedValue
    | none => .error .refusedValue
  | .outputFormat => orInvalid .outputFormat (OutputFormat.ofWord? text)
  | .listFormat => orInvalid .listFormat (ListFormat.ofWord? text)
  | .shell => orInvalid .shell (Shell.ofWord? text)

structure Parameter where
  key : Key
  takes : Takes
  deriving DecidableEq, Repr

inductive Switch where
  | parameter (p : Parameter)
  | help
  | version
  deriving DecidableEq, Repr

namespace Place

def ownOptions : Place → List (String × Option Char × Parameter)
  | .serve =>
    [("name", some 'n', ⟨.name, .value .text⟩), ("scoped-path", none, ⟨.scopedPath, .nothing⟩)]
  | .new =>
    [("template", some 't', ⟨.template, .value .text⟩), ("author", none, ⟨.author, .value .text⟩),
     ("email", none, ⟨.email, .value .text⟩), ("year", none, ⟨.year, .value .year⟩),
     ("bindir", none, ⟨.binDir, .value .path⟩), ("yes", some 'y', ⟨.yes, .nothing⟩),
     ("force", none, ⟨.force, .nothing⟩), ("dry-run", none, ⟨.dryRun, .nothing⟩)]
  | .list => [("format", none, ⟨.format, .value .listFormat⟩)]
  | .init => [("local", none, ⟨.isLocal, .nothing⟩), ("force", some 'f', ⟨.force, .nothing⟩)]
  | _ => []

def sharedOptions : List (String × Option Char × Parameter) :=
  [("verbose", some 'v', ⟨.verbose, .count⟩), ("quiet", some 'q', ⟨.quiet, .nothing⟩),
   ("no-color", none, ⟨.noColour, .nothing⟩), ("config", some 'c', ⟨.config, .value .path⟩),
   ("output-format", none, ⟨.outputFormat, .value .outputFormat⟩)]

def options (place : Place) : List (String × Option Char × Switch) :=
  (place.ownOptions ++ sharedOptions).map (fun (long, short, p) => (long, short, .parameter p)) ++
    [("help", some 'h', .help)] ++
    if place = .root then [("version", some 'V', .version)] else []

def long? (place : Place) (name : String) : Option Switch :=
  (place.options.find? (·.1 == name)).map (·.2.2)

def short? (place : Place) (name : Char) : Option Switch :=
  (place.options.find? (·.2.1 == some name)).map (·.2.2)

def positional? : Place → Option Parameter
  | .new => some ⟨.name, .value .text⟩
  | .completions => some ⟨.shell, .value .shell⟩
  | .configGet => some ⟨.setting, .value .text⟩
  | _ => none

end Place

end CommandLine

end RunnerKit
