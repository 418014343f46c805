import RunnerKit.CommandLine.Grammar
/-!
This module contains the reading of command lines. Words are taken one by one; a command's name
leads to a place of its own, whose words come after it. A value waits until the next option or
positional argument is met, or the end, before it is looked at, so of two faults the one that is
looked at first counts.
-/

namespace RunnerKit

namespace CommandLine

/--
Where a value comes from. What is missing has its default, which comes from nowhere.
-/
inductive Source where
  | environment
  | words
  deriving DecidableEq, Repr

structure Given where
  place : Place
  arguments : List (Key × Source × Value) := []
  deriving Repr

namespace Given

def get? (g : Given) (key : Key) : Option (Source × Value) := g.arguments.lookup key

def has (g : Given) (key : Key) : Bool := (g.get? key).isSome

def put (g : Given) (key : Key) (source : Source) (value : Value) : Given :=
  { g with arguments := (key, source, value) :: g.arguments.filter (·.1 ≠ key) }

def take (g : Given) (p : Parameter) (text? : Option String) : Except UsageFault Given :=
  match p.takes, text? with
  | .nothing, _ =>
    if g.has p.key then .error .conflict else .ok (g.put p.key .words (.on true))
  | .count, _ =>
    let before := match g.get? p.key with
      | some (_, .count n) => n
      | _ => 0
    .ok (g.put p.key .words (.count (min maxCount (before + 1))))
  | .value _, none => .error .invalidValue
  | .value kind, some text =>
    if g.has p.key then .error .conflict
    else (kind.read text).map (g.put p.key .words ·)

end Given

structure Reading where
  given : Given
  /-- an argument whose value is not looked at yet, with its text if that has come -/
  pending : Option (Parameter × Option String) := none
  /-- whether the next word is the value of the pending argument, unless it looks like an option -/
  awaiting : Bool := false
  /-- whether options have ended -/
  trailing : Bool := false
  positionalsTaken : Nat := 0
  deriving Repr

namespace Reading

def start (place : Place) : Reading := { given := { place } }

def place (r : Reading) : Place := r.given.place

def settle (r : Reading) : Except UsageFault Reading :=
  match r.pending with
  | none => .ok r
  | some (p, text?) => (r.given.take p text?).map fun given => { r with given, pending := none }

def takeNow (r : Reading) (p : Parameter) (text? : Option String) : Except UsageFault Reading := do
  let r ← r.settle
  let given ← r.given.take p text?
  return { r with given, awaiting := false }

def takeValue (r : Reading) (p : Parameter) (attached? : Option String) :
    Except UsageFault Reading :=
  match attached? with
  | some text => r.takeNow p (some text)
  | none => r.settle.map fun r => { r with pending := some (p, none), awaiting := true }

/--
A request for help or the version. A pending value is looked at even then.
-/
def stop (r : Reading) (fault : UsageFault) : Except UsageFault Reading :=
  r.settle.bind fun _ => .error fault

def takeLong (r : Reading) (body : List Char) : Except UsageFault Reading :=
  let name := String.ofList (body.takeWhile (· ≠ '='))
  let attached? := match body.dropWhile (· ≠ '=') with
    | _ :: text => some (String.ofList text)
    | [] => none
  match r.place.long? name with
  | none => .error .unknownArgument
  | some (.parameter ⟨key, .value kind⟩) => r.takeValue ⟨key, .value kind⟩ attached?
  | some switch =>
    if attached?.isSome then .error .tooManyValues
    else match switch with
      | .parameter p => r.takeNow p none
      | .help => r.stop .help
      | .version => r.stop .version

/--
Takes a cluster of short options, without the dash. What follows an option with a value is its
value.
-/
def takeShort (r : Reading) : List Char → Except UsageFault Reading
  | [] => .ok r
  | c :: rest =>
    match r.place.short? c with
    | none => .error .unknownArgument
    | some .help => r.stop .help
    | some .version => r.stop .version
    | some (.parameter ⟨key, .value kind⟩) =>
      r.takeValue ⟨key, .value kind⟩ <| match rest with
        | [] => none
        | '=' :: text => some (String.ofList text)
        | text => some (String.ofList text)
    | some (.parameter p) => do
      let r ← r.takeNow p none
      r.takeShort rest

/--
Takes a word that is no option. A word that has no place here may have been meant for a command.
-/
def takePlain (r : Reading) (word : String) : Except UsageFault Reading :=
  if r.awaiting ∧ !r.trailing then
    .ok { r with pending := r.pending.map fun (p, _) => (p, some word), awaiting := false }
  else match r.place.positional? with
    | some p =>
      if r.positionalsTaken = 0 then
        r.settle.map fun r =>
          { r with pending := some (p, some word), positionalsTaken := 1, awaiting := false }
      else .error .unknownArgument
    | none =>
      if r.place.needsChild then
        let isChild := (r.place.child? word).isSome || word == "help"
        .error (if r.trailing ∧ isChild then .unknownArgument else .unknownCommand)
      else .error .unknownArgument

def finish (r : Reading) (noColour? : Option String) (hasChild : Bool) :
    Except UsageFault Given := do
  let r ← r.settle
  let given ← match noColour?, r.given.has .noColour with
    | some "true", false => pure (r.given.put .noColour .environment (.on true))
    | some "false", false => pure (r.given.put .noColour .environment (.on false))
    | some _, false => throw .invalidValue
    | _, _ => pure r.given
  if given.place.needsChild ∧ !hasChild then
    throw (if given.arguments.isEmpty then .missingHelp else .missingCommand)
  if given.has .quiet ∧ given.has .verbose then throw .conflict
  if let some p := given.place.positional? then
    if !given.has p.key then throw .missingArgument
  return given

end Reading

def helpFault (place : Place) : List String → UsageFault
  | [] => .help
  | word :: words =>
    match place.child? word with
    | some child => helpFault child words
    | none =>
      if place.needsChild ∧ word = "help" ∧ words.isEmpty then .help else .unknownCommand

def read (noColour? : Option String) (r : Reading) : List String → Except UsageFault (List Given)
  | [] => (r.finish noColour? false).map ([·])
  | word :: words =>
    if r.trailing then do
      let r ← r.takePlain word
      read noColour? r words
    else if !r.awaiting ∧ r.place.needsChild ∧ word = "help" then .error (helpFault r.place words)
    else match if r.awaiting then none else r.place.child? word with
      | some child => do
        let below ← read noColour? (.start child) words
        let given ← r.finish noColour? true
        return given :: below
      | none => do
        let r ← match word.toList with
          | ['-', '-'] => pure { r with trailing := true }
          | '-' :: '-' :: body => r.takeLong body
          | '-' :: c :: cluster => r.takeShort (c :: cluster)
          | _ => r.takePlain word
        read noColour? r words

/--
The value of an argument that several places may give: the words come before the environment, and
inner places before outer ones.
-/
def shared? (levels : List Given) (key : Key) : Option Value :=
  (levels.foldl outranked none).map (·.2)
where
  outranked (best : Option (Source × Value)) (g : Given) : Option (Source × Value) :=
    match best, g.get? key with
    | some (.words, v), some (.environment, _) => some (.words, v)
    | _, some found => some found
    | best, none => best

def Value.isOn : Value → Bool
  | .on flag => flag
  | _ => false

def Value.count? : Value → Option Nat
  | .count n => some n
  | _ => none

def Value.text? : Value → Option String
  | .text s => some s
  | _ => none

def Value.path? : Value → Option Path
  | .path p => some p
  | _ => none

def Value.year? : Value → Option Int
  | .year n => some n
  | _ => none

def Value.outputFormat? : Value → Option OutputFormat
  | .outputFormat f => some f
  | _ => none

def Value.listFormat? : Value → Option ListFormat
  | .listFormat f => some f
  | _ => none

def Value.shell? : Value → Option Shell
  | .shell s => some s
  | _ => none

def globals (levels : List Given) : Globals where
  verbose := ((shared? levels .verbose).bind Value.count?).getD 0
  quiet := (shared? levels .quiet).any Value.isOn
  noColour := (shared? levels .noColour).any Value.isOn
  config? := (shared? levels .config).bind Value.path?
  outputFormat := ((shared? levels .outputFormat).bind Value.outputFormat?).getD .auto

def command? (g : Given) : Option Command :=
  let value? (key : Key) := (g.get? key).map (·.2)
  let text? (key : Key) := (value? key).bind Value.text?
  let isOn (key : Key) := (value? key).any Value.isOn
  match g.place with
  | .serve => some (.serve { name? := text? .name, scopedPath := isOn .scopedPath })
  | .new => (text? .name).map fun name => .new {
      name, template? := text? .template, author? := text? .author, email? := text? .email,
      year? := (value? .year).bind Value.year?, binDir? := (value? .binDir).bind Value.path?,
      yes := isOn .yes, force := isOn .force, dryRun := isOn .dryRun }
  | .list => some (.list ((value? .format).bind Value.listFormat?))
  | .init => some (.init { isLocal := isOn .isLocal, force := isOn .force })
  | .completions => ((value? .shell).bind Value.shell?).map .completions
  | .configGet => (text? .setting).map (.config <| .get ·)
  | .configList => some (.config .list)
  | .configPath => some (.config .path)
  | .root | .config => none

/--
Reads a command line, without the program's name. `noColour?` is the value of the variable
`NO_COLOR`.
-/
def parse (noColour? : Option String) (words : List String) : Except UsageFault Invocation := do
  let levels ← read noColour? (.start .root) words
  match levels.getLast?.bind command? with
  | some command => return { globals := globals levels, command }
  | none => throw .missingCommand

end CommandLine

end RunnerKit
