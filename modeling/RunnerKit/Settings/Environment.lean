import RunnerKit.Path.Basic
import RunnerKit.Settings.Value
/-!
This module contains the layer of settings that the environment makes up.
-/

namespace RunnerKit

abbrev Environment := List (String × String)

namespace Environment

def get? (env : Environment) (name : String) : Option String := env.lookup name

def set (name value : String) : Environment → Environment
  | [] => [(name, value)]
  | (other, old) :: env =>
    if other = name then (name, value) :: env else (other, old) :: Environment.set name value env

/--
The directory that a variable names. One that is not absolute does not count.
-/
def directory? (env : Environment) (name : String) : Option Path :=
  ((env.get? name).map Path.ofString).filter Path.isAbsolute

end Environment

abbrev Home := Option Path

def Home.ofString (s : String) : Home := some (.ofString s)

namespace Settings

def variablePrefix : List Char := "dbusrunner_".toList

def dotted : List Char → List Char
  | '_' :: '_' :: cs => '.' :: dotted cs
  | c :: cs => c :: dotted cs
  | [] => []

def keyOfVariable? (name : String) : Option String :=
  let cs := name.toList.map Char.toLower
  if variablePrefix.isPrefixOf cs then
    some (String.ofList (dotted (cs.drop variablePrefix.length)))
  else none

/--
The value that a text stands for. Flags and numbers are recognised, everything else is text.
-/
def valueOfText (text : String) : Value :=
  match asciiLower text with
  | "true" => .flag true
  | "false" => .flag false
  | _ =>
    match readInt64? text.toList, readNumber? text.toList with
    | some n, _ => .integer n
    | none, some x => .number x
    | none, none => .text text

/--
The layer of an environment. Of two variables that set the same key the later counts.
-/
def ofEnvironment (env : Environment) : Entries :=
  env.foldl (fun entries (name, text) =>
    match keyOfVariable? name with
    | some key => entries.put key (valueOfText text)
    | none => entries) []

end Settings

end RunnerKit
