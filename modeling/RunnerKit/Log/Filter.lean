import RunnerKit.Log
import RunnerKit.Binary64.Nearest
import RunnerKit.Text.Case
/-!
This module contains the filters that decide which events show. The directive that names the area of
an event most closely decides about it, and an event that no directive is about does not show.
-/

namespace RunnerKit

/--
The least level that shows in the areas whose names begin with `target`. There is none if nothing
shows.
-/
structure Directive where
  target : String := ""
  least? : Option Level
  deriving DecidableEq, Repr

namespace Directive

def covers (d : Directive) (event : Event) : Bool :=
  d.target.toList.isPrefixOf event.area.name.toList

def allows (d : Directive) (event : Event) : Bool :=
  match d.least? with
  | some least => least ≤ event.level
  | none => false

def levelOfWord? (word : String) : Option (Option Level) :=
  let levels := [none, some .error, some .warn, some .info, some .debug, some .trace]
  match readInteger? word.toList with
  | some n => if 0 ≤ n then levels[n.toNat]? else none
  | none =>
    match asciiLower word with
    | "off" => some none
    | "" | "error" => some (some .error)
    | "warn" => some (some .warn)
    | "info" => some (some .info)
    | "debug" => some (some .debug)
    | "trace" => some (some .trace)
    | _ => none

def isTargetStart (c : Char) : Bool :=
  c.isAlphanum || c == '-' || c == ':' || c == '_' || 128 ≤ c.toNat

/--
A directive in words: a level, a target, or both with an equals sign between them. A target without
a level shows everything.
-/
def read? (text : String) : Option Directive := do
  let cs := text.toList
  guard ((cs.head?.map isTargetStart).getD false)
  let target := String.ofList (cs.takeWhile (· != '='))
  match cs.dropWhile (· != '=') with
  | [] =>
    match levelOfWord? text with
    | some least? => return { least? }
    | none => return { target, least? := some .trace }
  | _ :: level =>
    let least? ← if level.isEmpty then pure (some .trace) else levelOfWord? (String.ofList level)
    return { target, least? }

end Directive

abbrev LogFilter := List Directive

namespace LogFilter

def deciding? (filter : LogFilter) (event : Event) : Option Directive :=
  (filter.filter (·.covers event)).foldl (fun best? d =>
    match best? with
    | some best => if d.target.length < best.target.length then some best else some d
    | none => some d) none

def shows (filter : LogFilter) (event : Event) : Bool :=
  ((filter.deciding? event).map (·.allows event)).getD false

/--
A filter in words: directives with commas between them. Without any, errors show.
-/
def read? (text : String) : Option LogFilter := do
  let words := (text.split (· == ',')).toList.map (·.toString)
  let filter ← (words.filter (!·.isEmpty)).mapM Directive.read?
  return if filter.isEmpty then [{ least? := some .error }] else filter

def ofVerbosity (verbose : Nat) (quiet : Bool) : LogFilter :=
  let least := if quiet then Level.error else
    match verbose with
    | 0 => .warn
    | 1 => .info
    | 2 => .debug
    | _ => .trace
  [{ target := Area.program.name, least? := some least }]

end LogFilter

end RunnerKit
