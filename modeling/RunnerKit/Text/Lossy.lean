/-!
This module contains the reading of bytes as text. Bytes that are no UTF-8 do not stop it: each
longest piece that could have begun a character is replaced by U+FFFD.
-/

namespace RunnerKit

def isContinuation (b : UInt8) : Bool :=
  decide (0x80 ≤ b) && decide (b ≤ 0xBF)

/--
Whether `b` may follow the first byte `a` of a character of three or four bytes. The exceptions keep
out overlong forms, surrogates and values above U+10FFFF.
-/
def isSecondByte (a b : UInt8) : Bool :=
  if a = 0xE0 then decide (0xA0 ≤ b) && decide (b ≤ 0xBF)
  else if a = 0xED then decide (0x80 ≤ b) && decide (b ≤ 0x9F)
  else if a = 0xF0 then decide (0x90 ≤ b) && decide (b ≤ 0xBF)
  else if a = 0xF4 then decide (0x80 ≤ b) && decide (b ≤ 0x8F)
  else isContinuation b

def lowBits (b : UInt8) (n : Nat) : Nat := b.toNat % (1 <<< n)

def decodeLossy : List UInt8 → List Char
  | [] => []
  | a :: r =>
    if a < 0x80 then Char.ofNat a.toNat :: decodeLossy r
    else if 0xC2 ≤ a ∧ a ≤ 0xDF then
      match r with
      | b :: r₁ =>
        if isContinuation b then
          Char.ofNat (lowBits a 5 * 64 + lowBits b 6) :: decodeLossy r₁
        else '\uFFFD' :: decodeLossy (b :: r₁)
      | [] => ['\uFFFD']
    else if 0xE0 ≤ a ∧ a ≤ 0xEF then
      match r with
      | b :: r₁ =>
        if isSecondByte a b then
          match r₁ with
          | c :: r₂ =>
            if isContinuation c then
              Char.ofNat ((lowBits a 4 * 64 + lowBits b 6) * 64 + lowBits c 6) :: decodeLossy r₂
            else '\uFFFD' :: decodeLossy (c :: r₂)
          | [] => ['\uFFFD']
        else '\uFFFD' :: decodeLossy (b :: r₁)
      | [] => ['\uFFFD']
    else if 0xF0 ≤ a ∧ a ≤ 0xF4 then
      match r with
      | b :: r₁ =>
        if isSecondByte a b then
          match r₁ with
          | c :: r₂ =>
            if isContinuation c then
              match r₂ with
              | d :: r₃ =>
                if isContinuation d then
                  Char.ofNat (((lowBits a 3 * 64 + lowBits b 6) * 64 + lowBits c 6) * 64
                    + lowBits d 6) :: decodeLossy r₃
                else '\uFFFD' :: decodeLossy (d :: r₃)
              | [] => ['\uFFFD']
            else '\uFFFD' :: decodeLossy (c :: r₂)
          | [] => ['\uFFFD']
        else '\uFFFD' :: decodeLossy (b :: r₁)
      | [] => ['\uFFFD']
    else '\uFFFD' :: decodeLossy r

def utf8Bytes (s : String) : List UInt8 :=
  s.toUTF8.toList

end RunnerKit
