import RunnerKit.Settings.Value
import RunnerKit.Text.Reader
/-!
This module contains the reading of settings that are written as JSON.
-/

namespace RunnerKit.Settings.Json

open Reader

def isBlank (c : Char) : Bool := c == ' ' || c == '\n' || c == '\t' || c == '\r'

def maxNesting : Nat := 127

/--
The character that an escape stands for, past the backslash. A code point above the first plane is
written as two surrogates.
-/
def escape : Reader Char := do
  match ← next with
  | '"' => return '"'
  | '\\' => return '\\'
  | '/' => return '/'
  | 'b' => return '\x08'
  | 'f' => return '\x0c'
  | 'n' => return '\n'
  | 'r' => return '\r'
  | 't' => return '\t'
  | 'u' =>
    let unit := digitsValueIn 16 (← exactly isHexDigit 4)
    if 0xD800 ≤ unit ∧ unit ≤ 0xDBFF then
      expect ['\\', 'u']
      let low := digitsValueIn 16 (← exactly isHexDigit 4)
      guard (0xDC00 ≤ low && low ≤ 0xDFFF)
      charOfCode? (0x10000 + (unit - 0xD800) * 0x400 + (low - 0xDC00))
    else charOfCode? unit
  | _ => failure

def quoted : Nat → Reader (List Char)
  | 0 => failure
  | fuel + 1 => do
    match ← next with
    | '"' => return []
    | '\\' => return (← escape) :: (← quoted fuel)
    | c =>
      guard (' ' ≤ c)
      return c :: (← quoted fuel)

def string : Reader String := do
  expect ['"']
  return String.ofList (← quoted (← get).length)

/--
A number. One without a fraction and an exponent is an integer if 64 bits hold it; the negative zero
is none.
-/
def number : Reader Value := do
  let negative ← accept ['-']
  let whole ← takeWhile Char.isDigit
  guard (!whole.isEmpty && (whole.length == 1 || whole.head? != some '0'))
  let hasPoint ← accept ['.']
  let fraction ← if hasPoint then takeWhile Char.isDigit else pure []
  guard (!hasPoint || !fraction.isEmpty)
  let hasExponent ← if ← accept ['e'] then pure true else accept ['E']
  let exponent ← if hasExponent then takeExponent else pure 0
  if !hasPoint && !hasExponent then
    let n : Int := if negative then -(digitsValue whole : Int) else digitsValue whole
    if fitsInt64 n && !(negative && n == 0) then return .integer n
  let x := Binary64.nearest negative ⟨digitsValue (whole ++ fraction), exponent - fraction.length⟩
  guard (!x.isInfinite)
  return .number x
where
  takeExponent : Reader Int := do
    let negative ← accept ['-']
    let _ ← if negative then pure false else accept ['+']
    let digits ← takeWhile Char.isDigit
    guard (!digits.isEmpty)
    return if negative then -(digitsValue digits : Int) else digitsValue digits

mutual

def value (nesting : Nat) : Nat → Reader Value
  | 0 => failure
  | fuel + 1 => do
    skipWhile isBlank
    match ← peek? with
    | some '"' => return .text (← string)
    | some '[' =>
      guard (0 < nesting)
      expect ['[']
      skipWhile isBlank
      if ← accept [']'] then return .list [] else return .list (← values (nesting - 1) fuel)
    | some '\x7b' =>
      guard (0 < nesting)
      expect ['\x7b']
      skipWhile isBlank
      if ← accept ['\x7d'] then return .table []
      else return .table (← members (nesting - 1) [] fuel)
    | some 't' => expect ['t', 'r', 'u', 'e']; return .flag true
    | some 'f' => expect ['f', 'a', 'l', 's', 'e']; return .flag false
    | some 'n' => expect ['n', 'u', 'l', 'l']; return .nothing
    | _ => number

def values (nesting : Nat) : Nat → Reader (List Value)
  | 0 => failure
  | fuel + 1 => do
    let first ← value nesting fuel
    skipWhile isBlank
    if ← accept [','] then return first :: (← values nesting fuel)
    else
      expect [']']
      return [first]

def members (nesting : Nat) (entries : Entries) : Nat → Reader Entries
  | 0 => failure
  | fuel + 1 => do
    skipWhile isBlank
    let key ← string
    skipWhile isBlank
    expect [':']
    let entries := entries.put key (← value nesting fuel)
    skipWhile isBlank
    if ← accept [','] then members nesting entries fuel
    else
      expect ['\x7d']
      return entries

end

def read? (s : List Char) : Option Entries := do
  let whole : Reader Value := do
    let v ← value maxNesting (2 * s.length + 2)
    skipWhile isBlank
    return v
  match ← whole.readAll? s with
  | .table entries => some entries
  | _ => none

end RunnerKit.Settings.Json
