/-!
This module contains the 64 bit binary floating point numbers as words, together with their order.
Nothing here computes with machine floats, so every question about a number is one about its bits.
-/

namespace RunnerKit

structure Binary64 where
  bits : UInt64
  deriving DecidableEq, Repr, Inhabited

namespace Binary64

def signBit : Nat := 0x8000000000000000

def hiddenBit : Nat := 0x10000000000000

def isNegative (x : Binary64) : Bool :=
  decide (signBit ≤ x.bits.toNat)

/--
The bits below the sign. Without the sign, numbers are ordered as these words are.
-/
def magnitude (x : Binary64) : Nat :=
  x.bits.toNat % signBit

/--
The magnitude of the two infinities; every larger magnitude is a NaN.
-/
def infinityMagnitude : Nat := 0x7ff0000000000000

def isNaN (x : Binary64) : Bool :=
  decide (infinityMagnitude < x.magnitude)

def isInfinite (x : Binary64) : Bool :=
  decide (x.magnitude = infinityMagnitude)

/--
The place of a number among all numbers. The two zeros share a place, neighbours differ by one.
-/
def rank (x : Binary64) : Int :=
  if x.isNegative then -(x.magnitude : Int) else (x.magnitude : Int)

def numEq (x y : Binary64) : Bool :=
  !x.isNaN && !y.isNaN && decide (x.rank = y.rank)

def lt (x y : Binary64) : Bool :=
  !x.isNaN && !y.isNaN && decide (x.rank < y.rank)

def partialCompare (x y : Binary64) : Option Ordering :=
  if x.isNaN || y.isNaN then none
  else some (compare x.rank y.rank)

def ofMagnitude (negative : Bool) (magnitude : Nat) : Binary64 :=
  ⟨UInt64.ofNat (if negative then signBit + magnitude else magnitude)⟩

def zero : Binary64 := ⟨0⟩
def one : Binary64 := ⟨0x3ff0000000000000⟩
def nan : Binary64 := ⟨0x7ff8000000000000⟩
def infinity (negative : Bool) : Binary64 := ofMagnitude negative infinityMagnitude

/--
`x` restricted to the unit interval. Numbers in it, the negative zero among them, stay as they are.
-/
def clampUnit (x : Binary64) : Binary64 :=
  if x.lt zero then zero
  else if one.lt x then one
  else x

def significand (x : Binary64) : Nat :=
  if x.magnitude / hiddenBit = 0 then x.magnitude % hiddenBit
  else hiddenBit + x.magnitude % hiddenBit

def exponent (x : Binary64) : Int :=
  if x.magnitude / hiddenBit = 0 then -1074 else (x.magnitude / hiddenBit : Nat) - 1075

end Binary64

end RunnerKit
