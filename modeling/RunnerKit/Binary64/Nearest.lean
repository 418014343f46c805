import RunnerKit.Binary64.Shortest
/-!
This module contains the reading of decimals: the number nearest to a decimal, a tie going to the
even significand, and the number literals of plain text.
-/

namespace RunnerKit

def roundHalfEven (num den : Nat) : Nat :=
  let q := num / den
  let r := num % den
  if 2 * r < den then q
  else if den < 2 * r then q + 1
  else q + q % 2

namespace Binary64

/--
The magnitude of the number nearest to the positive fraction `num / den`. A significand that rounds
up to the next power of two carries into the exponent bits, which is what the sum does.
-/
def nearestMagnitude (num den : Nat) : Nat :=
  let guess : Int := (num.log2 : Int) - den.log2 - 52
  let scaled (e : Int) := (num <<< (-e).toNat, den <<< e.toNat)
  let fits (e : Int) := let (n, d) := scaled e; decide (n < d * (2 * hiddenBit))
  let e := max (-1074)
    (if fits (guess - 1) then guess - 1 else if fits guess then guess else guess + 1)
  let (n, d) := scaled e
  let m := roundHalfEven n d
  if m < hiddenBit then m
  else min infinityMagnitude ((e + 1074).toNat * hiddenBit + m)

/--
The number nearest to a decimal. Exponents far outside the range are not multiplied out.
-/
def nearest (negative : Bool) (d : Decimal) : Binary64 :=
  let length : Int := (Nat.toDigits 10 d.digits).length
  if d.digits = 0 ∨ d.exponent + length < -400 then ofMagnitude negative 0
  else if 400 < d.exponent + length then infinity negative
  else ofMagnitude negative <|
    nearestMagnitude (d.digits * Nat.pow 10 d.exponent.toNat) (Nat.pow 10 (-d.exponent).toNat)

end Binary64

def digitsValue (cs : List Char) : Nat :=
  cs.foldl (fun n c => 10 * n + (c.toNat - '0'.toNat)) 0

def splitSign : List Char → Bool × List Char
  | '-' :: cs => (true, cs)
  | '+' :: cs => (false, cs)
  | cs => (false, cs)

def readInteger? (s : List Char) : Option Int :=
  let (negative, digits) := splitSign s
  if digits.isEmpty || !digits.all Char.isDigit then none
  else some (if negative then -(digitsValue digits : Int) else digitsValue digits)

def fitsInt64 (n : Int) : Bool :=
  decide (-0x8000000000000000 ≤ n) && decide (n < 0x8000000000000000)

def readInt64? (s : List Char) : Option Int := (readInteger? s).filter fitsInt64

def readDecimal? (s : List Char) : Option Decimal :=
  let whole := s.takeWhile Char.isDigit
  let rest := s.dropWhile Char.isDigit
  let (fraction, rest) := match rest with
    | '.' :: r => (r.takeWhile Char.isDigit, r.dropWhile Char.isDigit)
    | r => ([], r)
  if whole.isEmpty && fraction.isEmpty then none
  else
    let mantissa := digitsValue (whole ++ fraction)
    match rest with
    | [] => some ⟨mantissa, -(fraction.length : Int)⟩
    | c :: e =>
      if c = 'e' ∨ c = 'E' then
        (readInteger? e).map fun n => ⟨mantissa, n - fraction.length⟩
      else none

def readNumber? (s : List Char) : Option Binary64 :=
  let (negative, body) := splitSign s
  let word := String.ofList (body.map Char.toLower)
  if word = "inf" ∨ word = "infinity" then some (Binary64.infinity negative)
  else if word = "nan" then some Binary64.nan
  else (readDecimal? body).map (Binary64.nearest negative)

end RunnerKit
