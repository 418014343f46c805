import RunnerKit.Path.Basic
import RunnerKit.Settings.Environment
/-!
This module contains the variables that a file adds to an environment. Each line sets one; quotes
may hold several lines together, and a dollar sign stands for the value of another variable.
-/

namespace RunnerKit

namespace VariableFile

def name : Path := .ofString ".env"

/-! Lines -/

inductive Spot where
  | plain
  | blank
  | escaped
  | weak
  | weakEscaped
  | strong
  | strongEscaped
  | comment
  deriving DecidableEq, Repr

def Spot.quoteOrPlain (c : Char) : Spot :=
  match c with
  | '\\' => escaped
  | '"' => weak
  | '\'' => strong
  | _ => plain

def Spot.after (c : Char) : Spot → Spot
  | plain => if c.isWhitespace && c != '\n' && c != '\r' then blank else quoteOrPlain c
  | blank => if c = '#' then comment else quoteOrPlain c
  | escaped => plain
  | weak => if c = '\\' then weakEscaped else if c = '"' then plain else weak
  | weakEscaped => weak
  | strong => if c = '\\' then strongEscaped else if c = '\'' then plain else strong
  | strongEscaped => strong
  | comment => if c = '\n' then plain else comment

/--
The lines of a file without their comments, up to the first that is broken off. `line` is what is
known of the current one, backwards.
-/
def linesFrom (spot : Spot) (line : List Char) : List Char → List (List Char)
  | [] => if spot = .plain ∨ spot = .comment then [line.reverse] else []
  | c :: cs =>
    if c = '#' ∧ line.all Char.isWhitespace then linesFrom .comment line cs
    else
      match spot.after c with
      | .comment => linesFrom .comment line cs
      | .plain =>
        if c = '\n' then
          let line := if line.head? = some '\r' then line.drop 1 else line
          line.reverse :: linesFrom .plain [] cs
        else linesFrom .plain (c :: line) cs
      | spot => linesFrom spot (c :: line) cs

/-! Values -/

inductive Wanted where
  | nothing
  | bare (name : List Char)
  | braced (name : List Char)
  deriving DecidableEq, Repr

structure Reading where
  /-- the value so far, backwards -/
  output : List Char := []
  strong : Bool := false
  weak : Bool := false
  escaped : Bool := false
  ending : Bool := false
  wanted : Wanted := .nothing

namespace Reading

def push (r : Reading) (c : Char) : Reading := { r with output := c :: r.output }

def substitute (env : Environment) (r : Reading) (name : List Char) : Reading :=
  let value := (env.get? (String.ofList name.reverse)).getD ""
  { r with output := value.toList.reverse ++ r.output, wanted := .nothing }

def takeEscaped (r : Reading) (c : Char) : Option Reading :=
  let r := { r with escaped := false }
  if c ∈ ['\\', '\'', '"', '$', ' '] then some (r.push c)
  else if c = 'n' then some (r.push '\n')
  else none

def takePlain (r : Reading) (c : Char) : Reading :=
  if c = '$' then { r with wanted := .bare [] }
  else if r.weak then
    if c = '"' then { r with weak := false }
    else if c = '\\' then { r with escaped := true }
    else r.push c
  else
    match c with
    | '\'' => { r with strong := true }
    | '"' => { r with weak := true }
    | '\\' => { r with escaped := true }
    | ' ' | '\t' => { r with ending := true }
    | c => r.push c

def take (env : Environment) (r : Reading) (c : Char) : Option Reading :=
  if r.ending then if c = ' ' ∨ c = '\t' then some r else none
  else if r.escaped then r.takeEscaped c
  else if r.strong then some (if c = '\'' then { r with strong := false } else r.push c)
  else
    match r.wanted with
    | .nothing => some (r.takePlain c)
    | .bare name =>
      if c.isAlphanum then some { r with wanted := .bare (c :: name) }
      else if c = '{' ∧ name.isEmpty then some { r with wanted := .braced [] }
      else
        let r := r.substitute env name
        some (if c = '$' then { r with wanted := .bare [] } else r.push c)
    | .braced name =>
      if c = '}' then some (r.substitute env name)
      else some { r with wanted := .braced (c :: name) }

def finish? (env : Environment) (r : Reading) : Option String :=
  if r.strong || r.weak then none
  else
    match r.wanted with
    | .nothing => some (String.ofList r.output.reverse)
    | .bare name => some (String.ofList (r.substitute env name).output.reverse)
    | .braced _ => none

end Reading

/--
The value that some characters stand for. A comment may follow it after a blank.
-/
def value? (env : Environment) (cs : List Char) : Option String :=
  go {} cs
where
  go (r : Reading) : List Char → Option String
    | [] => r.finish? env
    | c :: cs => if r.ending ∧ c = '#' then r.finish? env else (r.take env c).bind (go · cs)

/-! Assignments -/

def isNameStart (c : Char) : Bool := c.isAlpha || c == '_'

def isNameChar (c : Char) : Bool := c.isAlphanum || c == '_' || c == '.'

def takeName? (cs : List Char) : Option (List Char × List Char) :=
  match cs with
  | [] => none
  | c :: _ =>
    if isNameStart c then
      some (cs.takeWhile isNameChar, (cs.dropWhile isNameChar).dropWhile Char.isWhitespace)
    else none

/--
What a line sets. A blank line sets nothing, and the word `export` may stand before the name.
-/
def assignment? (env : Environment) (line : List Char) : Option (Option (String × String)) :=
  match line.dropWhile Char.isWhitespace with
  | [] | '#' :: _ => some none
  | cs => do
    let (name, cs) ← takeName? cs
    let (name, cs) ←
      if name = "export".toList ∧ cs.head? ≠ some '=' then takeName? cs else some (name, cs)
    match cs with
    | '=' :: cs =>
      match cs.dropWhile Char.isWhitespace with
      | [] | '#' :: _ => return some (String.ofList name, "")
      | cs => return some (String.ofList name, ← value? env cs)
    | _ => none

/--
The environment with the variables of some lines, up to the first line that makes no sense. A
variable that is set already stays as it is.
-/
def addLines (env : Environment) : List (List Char) → Environment
  | [] => env
  | line :: lines =>
    match assignment? env line with
    | none => env
    | some none => addLines env lines
    | some (some (name, value)) =>
      addLines (if (env.get? name).isSome then env else env.set name value) lines

def addText (env : Environment) (text : String) : Environment :=
  let cs := text.toList
  addLines env (linesFrom .plain [] (if cs.head? = some '\uFEFF' then cs.drop 1 else cs))

end VariableFile

end RunnerKit
