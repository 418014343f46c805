import RunnerKit.Settings.Basic
/-!
This module contains the writing of settings as TOML. A text is written in the plainest form that
can hold it: in double quotes if nothing has to be escaped, then in single quotes, and so on.
-/

namespace RunnerKit.Settings

namespace Toml

def longestRun (quote : Char) (cs : List Char) : Nat :=
  let step (state : Nat × Nat) (c : Char) : Nat × Nat :=
    let run := if c = quote then state.1 + 1 else 0
    (run, max state.2 run)
  (cs.foldl step (0, 0)).2

def isControl (c : Char) : Bool := (c < ' ' && c != '\t' && c != '\n') || c == '\x7f'

def upperHexDigit (n : Nat) : Char := if n < 10 then Char.ofNat (48 + n) else Char.ofNat (55 + n)

def escapeOf (c : Char) : List Char :=
  match c with
  | '\x08' => ['\\', 'b']
  | '\t' => ['\\', 't']
  | '\n' => ['\\', 'n']
  | '\x0c' => ['\\', 'f']
  | '\r' => ['\\', 'r']
  | '"' => ['\\', '"']
  | '\\' => ['\\', '\\']
  | c =>
    let n := c.toNat
    ['\\', 'u', upperHexDigit (n / 4096 % 16), upperHexDigit (n / 256 % 16),
      upperHexDigit (n / 16 % 16), upperHexDigit (n % 16)]

/--
A text with its escapes. `run` double quotes stand before it, and `limit` of them may follow each
other.
-/
def escaped (limit : Nat) (keepLines : Bool) (run : Nat) : List Char → List Char
  | [] => []
  | c :: cs =>
    if c = '"' then
      if run < limit then c :: escaped limit keepLines (run + 1) cs
      else escapeOf c ++ escaped limit keepLines 0 cs
    else if c = '\n' ∧ keepLines then c :: escaped limit keepLines 0 cs
    else if c = '\\' ∨ c = '\t' ∨ c = '\n' ∨ isControl c then
      escapeOf c ++ escaped limit keepLines 0 cs
    else c :: escaped limit keepLines 0 cs

/--
A text in quotes. One that has several lines begins on a line of its own.
-/
def quoted (cs : List Char) : List Char :=
  let hasControl := cs.any isControl
  let hasBackslash := cs.any (· == '\\')
  let hasLines := cs.any (· == '\n')
  let doubles := longestRun '"' cs
  let singles := longestRun '\'' cs
  let double := ['"']
  let tripleDouble := ['"', '"', '"']
  let tripleSingle := ['\'', '\'', '\'']
  let firstLine := if hasLines then ['\n'] else []
  if !hasControl && !hasBackslash && doubles == 0 && !hasLines then
    double ++ escaped 0 false 0 cs ++ double
  else if !hasControl && singles == 0 && !hasLines then '\'' :: cs ++ ['\'']
  else if !hasControl && !hasBackslash && doubles ≤ 2 then
    tripleDouble ++ firstLine ++ escaped 2 true 0 cs ++ tripleDouble
  else if !hasControl && singles ≤ 2 then tripleSingle ++ firstLine ++ cs ++ tripleSingle
  else if hasLines then tripleDouble ++ firstLine ++ escaped 2 true 0 cs ++ tripleDouble
  else double ++ escaped 0 false 0 cs ++ double

def scalar : Value → String
  | .text s => String.ofList (quoted s.toList)
  | v => v.text?.getD ""

def sectionText (name : String) (entries : Entries) : String :=
  "[" ++ name ++ "]\n" ++ String.join (entries.map fun (key, v) => key ++ " = " ++ scalar v ++ "\n")

end Toml

def toToml (s : Settings) : String :=
  "\n".intercalate (s.sections.map fun (name, entries) => Toml.sectionText name entries)

end RunnerKit.Settings
