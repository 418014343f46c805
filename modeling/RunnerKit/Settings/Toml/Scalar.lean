import RunnerKit.Settings.Value
import RunnerKit.Text.Reader
/-!
This module contains the reading of the parts of a TOML text that lie on one line or between quotes:
blanks, strings, keys, numbers and times.
-/

namespace RunnerKit.Settings.Toml

open Reader

def isBlank (c : Char) : Bool := c == ' ' || c == '\t'

/--
A character that may stand in comments and strings. Control characters may not, a tab apart.
-/
def isPlain (c : Char) : Bool := c == '\t' || (' ' ≤ c && c != '\x7f')

def isKeyChar (c : Char) : Bool := c.isAlphanum || c == '_' || c == '-'

def isScalarChar (c : Char) : Bool := isKeyChar c || c == '+' || c == '.' || c == ':'

def newline : Reader Bool := do
  if ← accept ['\n'] then return true else accept ['\r', '\n']

def comment : Reader Unit := do
  if ← accept ['#'] then skipWhile isPlain

def endLine : Reader Unit := do
  skipWhile isBlank
  comment
  if (← peek?).isSome then guard (← newline)

def skipGap : Nat → Reader Unit
  | 0 => pure ()
  | fuel + 1 => do
    skipWhile isBlank
    comment
    if ← newline then skipGap fuel

def skipBlankLines : Nat → Reader Unit
  | 0 => pure ()
  | fuel + 1 => do
    skipWhile isBlank
    if ← newline then skipBlankLines fuel

/-! Strings -/

def escape : Reader Char := do
  match ← next with
  | 'b' => return '\x08'
  | 't' => return '\t'
  | 'n' => return '\n'
  | 'f' => return '\x0c'
  | 'r' => return '\r'
  | 'e' => return '\x1b'
  | '"' => return '"'
  | '\\' => return '\\'
  | 'x' => code 2
  | 'u' => code 4
  | 'U' => code 8
  | _ => failure
where
  code (digits : Nat) : Reader Char := do
    charOfCode? (digitsValueIn 16 (← exactly isHexDigit digits))

def basic : Nat → Reader (List Char)
  | 0 => failure
  | fuel + 1 => do
    match ← next with
    | '"' => return []
    | '\\' => return (← escape) :: (← basic fuel)
    | c =>
      guard (isPlain c)
      return c :: (← basic fuel)

def literal : Reader (List Char) := do
  let cs ← takeWhile fun c => isPlain c && c != '\''
  expect ['\'']
  return cs

/--
The quotes that are next in a string of several lines. Three of them end it, after up to two that
belong to it; fewer belong to it and it goes on.
-/
def quotes (quote : Char) : Reader (List Char × Bool) := do
  let run := ((← get).takeWhile (· == quote)).take 5
  modify (·.drop run.length)
  return if run.length < 3 then (run, false) else (run.drop 3, true)

/--
The rest of a string with several lines, past its opening quotes. In a string with escapes, a
backslash that ends a line takes the end of the line and all blanks after it away.
-/
def lines (quote : Char) (escapes : Bool) : Nat → Reader (List Char)
  | 0 => failure
  | fuel + 1 => do
    match ← peek? with
    | none => failure
    | some c =>
      if c = quote then
        let (content, ended) ← quotes quote
        if ended then return content else return content ++ (← lines quote escapes fuel)
      else if c = '\\' ∧ escapes then
        expect ['\\']
        let cs ← get
        if lineEnds (cs.dropWhile isBlank) then
          skipBlankLines cs.length
          lines quote escapes fuel
        else return (← escape) :: (← lines quote escapes fuel)
      else if c = '\r' then
        expect ['\r', '\n']
        return '\r' :: '\n' :: (← lines quote escapes fuel)
      else
        let c ← next
        guard (isPlain c || c == '\n')
        return c :: (← lines quote escapes fuel)
where
  lineEnds : List Char → Bool
    | '\n' :: _ | '\r' :: '\n' :: _ => true
    | _ => false

def lineString : Reader String := do
  let fuel := (← get).length
  if ← accept ['"'] then return String.ofList (← basic fuel)
  else
    expect ['\'']
    return String.ofList (← literal)

/--
A string of any kind. The end of a line right after three opening quotes does not belong to it.
-/
def string : Reader String := do
  let fuel := (← get).length
  if ← accept ['"', '"', '"'] then
    let _ ← newline
    return String.ofList (← lines '"' true fuel)
  else if ← accept ['\'', '\'', '\''] then
    let _ ← newline
    return String.ofList (← lines '\'' false fuel)
  else lineString

/-! Keys -/

def name : Reader String := do
  match ← peek? with
  | some '"' | some '\'' => lineString
  | _ =>
    let cs ← takeWhile isKeyChar
    guard (!cs.isEmpty)
    return String.ofList cs

def key : Nat → Reader (List String)
  | 0 => failure
  | fuel + 1 => do
    skipWhile isBlank
    let first ← name
    skipWhile isBlank
    if ← accept ['.'] then return first :: (← key fuel) else return [first]

/-! Numbers -/

def digitGroups? (p : Char → Bool) : List Char → Option (List Char)
  | [] => none
  | [c] => if p c then some [c] else none
  | c :: '_' :: cs => if p c then (c :: ·) <$> digitGroups? p cs else none
  | c :: cs => if p c then (c :: ·) <$> digitGroups? p cs else none

def wholeDigits? (cs : List Char) : Option (List Char) :=
  (digitGroups? Char.isDigit cs).filter fun digits => digits.length == 1 || digits.head? != some '0'

def integer? (cs : List Char) : Option Int :=
  let magnitude? : Option Int := match cs with
    | '0' :: 'x' :: cs => (digitGroups? isHexDigit cs).map fun ds => digitsValueIn 16 ds
    | '0' :: 'o' :: cs =>
      (digitGroups? (fun c => '0' ≤ c && c ≤ '7') cs).map fun ds => digitsValueIn 8 ds
    | '0' :: 'b' :: cs =>
      (digitGroups? (fun c => c == '0' || c == '1') cs).map fun ds => digitsValueIn 2 ds
    | cs =>
      let (negative, cs) := splitSign cs
      (wholeDigits? cs).map fun ds => if negative then -(digitsValue ds : Int) else digitsValue ds
  magnitude?.filter fitsInt64

/--
A number with a fraction, an exponent or both, or a word for the infinities and the NaN. What is too
large to be finite is refused.
-/
def number? (cs : List Char) : Option Binary64 :=
  let (negative, cs) := splitSign cs
  let isMark (c : Char) := c == '.' || c == 'e' || c == 'E'
  if cs = ['i', 'n', 'f'] then some (.infinity negative)
  else if cs = ['n', 'a', 'n'] then some .nan
  else do
    let whole ← wholeDigits? (cs.takeWhile (!isMark ·))
    let rest := cs.dropWhile (!isMark ·)
    guard (!rest.isEmpty)
    let (fraction, rest) ← match rest with
      | '.' :: rest => do
        let digits ← digitGroups? Char.isDigit (rest.takeWhile (!isMark ·))
        pure (digits, rest.dropWhile (!isMark ·))
      | rest => pure ([], rest)
    let exponent ← match rest with
      | [] => pure 0
      | '.' :: _ => none
      | _ :: rest => do
        let (isBelow, rest) := splitSign rest
        let digits ← digitGroups? Char.isDigit rest
        pure (if isBelow then -(digitsValue digits : Int) else digitsValue digits)
    let x := Binary64.nearest negative ⟨digitsValue (whole ++ fraction), exponent - fraction.length⟩
    guard (!x.isInfinite)
    return x

/-! Times -/

def twoDigits? (largest : Nat) : List Char → Option (List Char × List Char)
  | a :: b :: cs =>
    if a.isDigit && b.isDigit && decide (digitsValue [a, b] ≤ largest) then some ([a, b], cs)
    else none
  | _ => none

def daysInMonth (year month : Nat) : Nat :=
  let isLeap := year % 4 == 0 && (year % 100 != 0 || year % 400 == 0)
  match month with
  | 2 => if isLeap then 29 else 28
  | 4 | 6 | 9 | 11 => 30
  | _ => 31

def date? : List Char → Option (List Char × List Char)
  | a :: b :: c :: d :: '-' :: e :: f :: '-' :: g :: h :: cs => do
    guard ([a, b, c, d, e, f, g, h].all Char.isDigit)
    let month := digitsValue [e, f]
    let day := digitsValue [g, h]
    guard (1 ≤ month && month ≤ 12 && 1 ≤ day && day ≤ daysInMonth (digitsValue [a, b, c, d]) month)
    return ([a, b, c, d, '-', e, f, '-', g, h], cs)
  | _ => none

/--
The digits of a fraction of a second as they are written: nine at most, and no zero at the end.
-/
def fractionText (digits : List Char) : List Char :=
  match ((digits.take 9).reverse.dropWhile (· == '0')).reverse with
  | [] => []
  | digits => '.' :: digits

def time? (cs : List Char) : Option (List Char × List Char) := do
  let (hour, cs) ← twoDigits? 23 cs
  let (minute, cs) ← match cs with
    | ':' :: cs => twoDigits? 59 cs
    | _ => none
  match cs with
  | ':' :: cs =>
    let (second, cs) ← twoDigits? 60 cs
    match cs with
    | '.' :: cs =>
      let digits := cs.takeWhile Char.isDigit
      guard (!digits.isEmpty)
      return (hour ++ ':' :: minute ++ ':' :: second ++ fractionText digits,
        cs.dropWhile Char.isDigit)
    | cs => return (hour ++ ':' :: minute ++ ':' :: second, cs)
  | cs => return (hour ++ ':' :: minute ++ [':', '0', '0'], cs)

def offset? : List Char → Option (List Char)
  | [] => some []
  | ['Z'] | ['z'] => some ['Z']
  | sign :: cs => do
    guard (sign == '+' || sign == '-')
    let (hour, cs) ← twoDigits? 24 cs
    match cs with
    | ':' :: cs =>
      let (minute, cs) ← twoDigits? 59 cs
      guard cs.isEmpty
      let isZero := (hour ++ minute).all (· == '0')
      return (if isZero then '+' else sign) :: hour ++ ':' :: minute
    | _ => none

def moment? (cs : List Char) : Option (List Char) :=
  match date? cs with
  | some (date, []) => some date
  | some (date, separator :: cs) => do
    guard (separator == 'T' || separator == 't' || separator == ' ')
    let (time, cs) ← time? cs
    return date ++ 'T' :: time ++ (← offset? cs)
  | none => do
    let (time, cs) ← time? cs
    guard cs.isEmpty
    return time

/-! All scalars without quotes -/

def bareValue? (cs : List Char) : Option Value :=
  if cs = ['t', 'r', 'u', 'e'] then some (.flag true)
  else if cs = ['f', 'a', 'l', 's', 'e'] then some (.flag false)
  else
    (integer? cs).map Value.integer <|> (number? cs).map Value.number
      <|> (moment? cs).map fun cs => .text (String.ofList cs)

/--
A value without quotes. A blank may stand between a date and a time.
-/
def bare : Reader Value := do
  let first ← takeWhile isScalarChar
  match date? first, ← get with
  | some (_, []), ' ' :: c :: cs =>
    if c.isDigit then
      set (c :: cs)
      let second ← takeWhile isScalarChar
      bareValue? (first ++ ' ' :: second)
    else bareValue? first
  | _, _ => bareValue? first

end RunnerKit.Settings.Toml
