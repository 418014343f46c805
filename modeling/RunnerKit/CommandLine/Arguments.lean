import RunnerKit.Path.Basic
import RunnerKit.Text.Case
/-!
This module contains what a command line asks for, once it is understood.
-/

namespace RunnerKit

inductive OutputFormat where
  /-- what the configuration says, or what suits the terminal -/
  | auto
  | human
  | plain
  | json
  deriving DecidableEq, Repr, Inhabited

namespace OutputFormat

def ofWord? : String → Option OutputFormat
  | "auto" => some .auto
  | "human" => some .human
  | "plain" => some .plain
  | "json" => some .json
  | _ => none

def ofSetting? (word : String) : Option OutputFormat := ofWord? (asciiLower word)

end OutputFormat

inductive ListFormat where
  | table
  /-- one template for each line, by id -/
  | list
  | json
  deriving DecidableEq, Repr

def ListFormat.ofWord? : String → Option ListFormat
  | "table" => some .table
  | "list" => some .list
  | "json" => some .json
  | _ => none

inductive Shell where
  | bash | zsh | fish | powerShell | elvish
  deriving DecidableEq, Repr

namespace Shell

def word : Shell → String
  | .bash => "bash"
  | .zsh => "zsh"
  | .fish => "fish"
  | .powerShell => "power-shell"
  | .elvish => "elvish"

def all : List Shell := [.bash, .zsh, .fish, .powerShell, .elvish]

def ofWord? (word : String) : Option Shell := all.find? (·.word == word)

end Shell

structure Globals where
  verbose : Nat := 0
  quiet : Bool := false
  noColour : Bool := false
  config? : Option Path := none
  outputFormat : OutputFormat := .auto
  deriving DecidableEq, Repr

structure ServeArguments where
  name? : Option String
  scopedPath : Bool
  deriving DecidableEq, Repr

structure NewArguments where
  name : String
  template? : Option String
  author? : Option String
  email? : Option String
  year? : Option Int
  binDir? : Option Path
  yes : Bool
  force : Bool
  dryRun : Bool
  deriving DecidableEq, Repr

structure InitArguments where
  isLocal : Bool
  force : Bool
  deriving DecidableEq, Repr

inductive ConfigCommand where
  | get (key : String)
  | list
  | path
  deriving DecidableEq, Repr

inductive Command where
  | serve (arguments : ServeArguments)
  | new (arguments : NewArguments)
  | list (format? : Option ListFormat)
  | init (arguments : InitArguments)
  | completions (shell : Shell)
  | config (command : ConfigCommand)
  deriving DecidableEq, Repr

structure Invocation where
  globals : Globals
  command : Command
  deriving DecidableEq, Repr

inductive UsageFault where
  | help
  | version
  /-- nothing was asked for, so help is what is needed -/
  | missingHelp
  | missingCommand
  | unknownCommand
  | unknownArgument
  | missingArgument
  | conflict
  | tooManyValues
  | invalidValue
  /-- a value of the right form that the option does not take -/
  | refusedValue
  deriving DecidableEq, Repr

def UsageFault.isAnswer : UsageFault → Bool
  | .help | .version => true
  | _ => false

def UsageFault.exitCode (fault : UsageFault) : UInt8 := if fault.isAnswer then 0 else 2

end RunnerKit
