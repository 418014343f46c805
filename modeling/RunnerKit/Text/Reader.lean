/-!
This module contains readers: programs that take characters from the front of a text until they have
made sense of them, or give up.
-/

namespace RunnerKit

abbrev Reader := StateT (List Char) Option

namespace Reader

def peek? : Reader (Option Char) := do return (← get).head?

def next : Reader Char := do
  match ← get with
  | [] => failure
  | c :: cs => set cs; return c

def takeWhile (p : Char → Bool) : Reader (List Char) := do
  let cs ← get
  set (cs.dropWhile p)
  return cs.takeWhile p

def skipWhile (p : Char → Bool) : Reader Unit := modify (·.dropWhile p)

def accept (word : List Char) : Reader Bool := do
  let cs ← get
  if word.isPrefixOf cs then
    set (cs.drop word.length)
    return true
  else return false

def expect (word : List Char) : Reader Unit := do guard (← accept word)

def exactly (p : Char → Bool) (count : Nat) : Reader (List Char) := do
  let cs := (← get).take count
  guard (cs.length == count && cs.all p)
  modify (·.drop count)
  return cs

def readAll? {α : Type} (reader : Reader α) (s : List Char) : Option α :=
  match reader s with
  | some (a, []) => some a
  | _ => none

end Reader

def isHexDigit (c : Char) : Bool :=
  c.isDigit || ('a' ≤ c && c ≤ 'f') || ('A' ≤ c && c ≤ 'F')

def hexDigitValue (c : Char) : Nat :=
  if c.isDigit then c.toNat - '0'.toNat
  else if 'a' ≤ c then c.toNat - 'a'.toNat + 10
  else c.toNat - 'A'.toNat + 10

def digitsValueIn (base : Nat) (cs : List Char) : Nat :=
  cs.foldl (fun n c => base * n + hexDigitValue c) 0

/--
The character with a code point. Surrogates and numbers past the last code point are none.
-/
def charOfCode? (n : Nat) : Option Char :=
  if n < 0xD800 ∨ (0xDFFF < n ∧ n < 0x110000) then some (Char.ofNat n) else none

end RunnerKit
