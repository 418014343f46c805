import Mathlib.Algebra.Group.Nat.Defs
import RunnerKit.Path.Basic
/-!
This module contains the laws of a text and its bytes. The bytes of a text are those of its
characters in turn, and reading them as text gives the characters back.
-/

namespace RunnerKit

theorem loop_eq_append_drop (bytes : ByteArray) (i : Nat) (taken : List UInt8)
    : ByteArray.toList.loop bytes i taken = taken.reverse ++ bytes.data.toList.drop i := by
  fun_induction ByteArray.toList.loop bytes i taken with
  | case1 i taken hi ih =>
    have hlength : i < bytes.data.toList.length := hi
    rw [ih, List.drop_eq_getElem_cons hlength]
    simp [ByteArray.get!, getElem!_pos bytes.data i hi]
  | case2 i taken hi =>
    have hlength : bytes.data.toList.length ≤ i := Nat.not_lt.mp hi
    rw [List.drop_eq_nil_of_le hlength, List.append_nil]

theorem utf8Bytes_eq_data (s : String) : utf8Bytes s = s.toByteArray.data.toList := by
  rw [utf8Bytes, String.toUTF8, ByteArray.toList, loop_eq_append_drop]
  rfl

theorem utf8Bytes_eq_flatMap (s : String)
    : utf8Bytes s = s.toList.flatMap String.utf8EncodeChar := by
  conv => lhs; rw [← String.ofList_toList (s := s)]
  rw [utf8Bytes_eq_data, String.toByteArray_ofList]
  simp [List.utf8Encode]

theorem utf8Bytes_append (s t : String) : utf8Bytes (s ++ t) = utf8Bytes s ++ utf8Bytes t := by
  simp [utf8Bytes_eq_flatMap]

theorem length_le_utf8ByteSize (s : String) : s.length ≤ s.utf8ByteSize := by
  have hbytes : (utf8Bytes s).length = s.utf8ByteSize := by
    rw [utf8Bytes_eq_data, Array.length_toList, ← ByteArray.size, String.size_toByteArray]
  rw [← hbytes, utf8Bytes_eq_flatMap, ← String.length_toList]
  induction s.toList with
  | nil => exact Nat.le_refl 0
  | cons c cs ih =>
    rw [List.flatMap_cons, List.length_append, String.length_utf8EncodeChar, List.length_cons,
      Nat.add_comm]
    exact Nat.add_le_add c.utf8Size_pos ih

section

variable {m n : Nat}

theorem toNat_ofNat_of_lt (h : n < 256) : (UInt8.ofNat n).toNat = n := by
  rw [UInt8.toNat_ofNat', Nat.mod_eq_of_lt h]

theorem lowBits_ofNat (bits : Nat) (h : n < 256) : lowBits (UInt8.ofNat n) bits = n % 2 ^ bits := by
  rw [lowBits, toNat_ofNat_of_lt h, Nat.shiftLeft_eq, Nat.one_mul]

theorem ofNat_bounds {low high : Nat} (hlow : low ≤ n) (hhigh : n ≤ high) (h : high < 256)
    : UInt8.ofNat low ≤ UInt8.ofNat n ∧ UInt8.ofNat n ≤ UInt8.ofNat high := by
  simp only [UInt8.le_iff_toNat_le]
  rw [toNat_ofNat_of_lt (by omega), toNat_ofNat_of_lt (by omega), toNat_ofNat_of_lt h]
  exact ⟨hlow, hhigh⟩

theorem isContinuation_ofNat (h : n < 64) : isContinuation (UInt8.ofNat (n + 128)) = true := by
  have hbounds : 0x80 ≤ UInt8.ofNat (n + 128) ∧ UInt8.ofNat (n + 128) ≤ 0xBF :=
    @ofNat_bounds _ 0x80 0xBF (by omega) (by omega) (by omega)
  simpa only [isContinuation, Bool.and_eq_true, decide_eq_true_eq] using hbounds

theorem isSecondByte_ofNat (hm : m < 256) (hn : n < 64) (hE0 : m = 0xE0 → 32 ≤ n)
    (hED : m = 0xED → n < 32) (hF0 : m = 0xF0 → 16 ≤ n) (hF4 : m = 0xF4 → n < 16)
    : isSecondByte (UInt8.ofNat m) (UInt8.ofNat (n + 128)) = true := by
  have heq {k : Nat} (hk : k < 256) (h : UInt8.ofNat m = UInt8.ofNat k) : m = k := by
    rw [← toNat_ofNat_of_lt hm, h, toNat_ofNat_of_lt hk]
  have hbounds {low high : Nat} (hlow : low ≤ n + 128) (hhigh : n + 128 ≤ high) (h : high < 256)
      : (decide (UInt8.ofNat low ≤ UInt8.ofNat (n + 128))
          && decide (UInt8.ofNat (n + 128) ≤ UInt8.ofNat high)) = true := by
    simpa only [Bool.and_eq_true, decide_eq_true_eq] using ofNat_bounds hlow hhigh h
  unfold isSecondByte
  split
  . next h =>
    have := hE0 (@heq 0xE0 (by omega) h)
    exact @hbounds 0xA0 0xBF (by omega) (by omega) (by omega)
  . split
    . next h =>
      have := hED (@heq 0xED (by omega) h)
      exact @hbounds 0x80 0x9F (by omega) (by omega) (by omega)
    . split
      . next h =>
        have := hF0 (@heq 0xF0 (by omega) h)
        exact @hbounds 0x90 0xBF (by omega) (by omega) (by omega)
      . split
        . next h =>
          have := hF4 (@heq 0xF4 (by omega) h)
          exact @hbounds 0x80 0x8F (by omega) (by omega) (by omega)
        . exact isContinuation_ofNat hn

end

section

variable {a b c d : UInt8}

theorem decodeLossy_one (ha : a < 0x80) (rest : List UInt8)
    : decodeLossy (a :: rest) = Char.ofNat a.toNat :: decodeLossy rest := by
  rw [decodeLossy.eq_def]
  simp only [ha, if_true]

theorem decodeLossy_two (ha : 0xC2 ≤ a ∧ a ≤ 0xDF) (hb : isContinuation b = true)
    (rest : List UInt8)
    : decodeLossy (a :: b :: rest) =
      Char.ofNat (lowBits a 5 * 64 + lowBits b 6) :: decodeLossy rest := by
  have h80 : ¬a < 0x80 := by
    rw [UInt8.not_lt]
    exact UInt8.le_trans (by decide) ha.1
  rw [decodeLossy.eq_def]
  simp only [h80, if_false, ha, and_self, if_true, hb]

theorem decodeLossy_three (ha : 0xE0 ≤ a ∧ a ≤ 0xEF) (hb : isSecondByte a b = true)
    (hc : isContinuation c = true) (rest : List UInt8)
    : decodeLossy (a :: b :: c :: rest) =
      Char.ofNat ((lowBits a 4 * 64 + lowBits b 6) * 64 + lowBits c 6) :: decodeLossy rest := by
  have h80 : ¬a < 0x80 := by
    rw [UInt8.not_lt]
    exact UInt8.le_trans (by decide) ha.1
  have hDF : ¬a ≤ 0xDF := by
    rw [UInt8.not_le]
    exact UInt8.lt_of_lt_of_le (by decide) ha.1
  rw [decodeLossy.eq_def]
  simp only [h80, hDF, if_false, ha, and_false, and_self, if_true, hb, hc]

theorem decodeLossy_four (ha : 0xF0 ≤ a ∧ a ≤ 0xF4) (hb : isSecondByte a b = true)
    (hc : isContinuation c = true) (hd : isContinuation d = true) (rest : List UInt8)
    : decodeLossy (a :: b :: c :: d :: rest) =
      Char.ofNat (((lowBits a 3 * 64 + lowBits b 6) * 64 + lowBits c 6) * 64 + lowBits d 6)
        :: decodeLossy rest := by
  have h80 : ¬a < 0x80 := by
    rw [UInt8.not_lt]
    exact UInt8.le_trans (by decide) ha.1
  have hDF : ¬a ≤ 0xDF := by
    rw [UInt8.not_le]
    exact UInt8.lt_of_lt_of_le (by decide) ha.1
  have hEF : ¬a ≤ 0xEF := by
    rw [UInt8.not_le]
    exact UInt8.lt_of_lt_of_le (by decide) ha.1
  rw [decodeLossy.eq_def]
  simp only [h80, hDF, hEF, if_false, ha, and_false, and_self, if_true, hb, hc, hd]

end

theorem decodeLossy_utf8EncodeChar_append (c : Char) (rest : List UInt8)
    : decodeLossy (String.utf8EncodeChar c ++ rest) = c :: decodeLossy rest := by
  -- That no surrogate is a character is what the bounds of the second byte need.
  have hvalid : c.val.toNat < 0xD800 ∨ 0xDFFF < c.val.toNat ∧ c.val.toNat < 0x110000 := c.valid
  have hchar : Char.ofNat c.val.toNat = c := Char.ofNat_toNat c
  unfold String.utf8EncodeChar
  generalize c.val.toNat = v at hvalid hchar
  dsimp only
  split
  . have ha : UInt8.ofNat v < 0x80 := by
      rw [UInt8.lt_iff_toNat_lt, toNat_ofNat_of_lt (by omega)]
      exact Nat.lt_succ_of_le ‹v ≤ 127›
    rw [List.singleton_append, decodeLossy_one ha, toNat_ofNat_of_lt (by omega), hchar]
  . split
    . have hv : (v / 64 % 32 + 192) % 2 ^ 5 * 64 + (v % 64 + 128) % 2 ^ 6 = v := by omega
      rw [List.cons_append, List.singleton_append, decodeLossy_two]
      . rw [lowBits_ofNat 5 (by omega), lowBits_ofNat 6 (by omega), hv, hchar]
      . exact @ofNat_bounds _ 0xC2 0xDF (by omega) (by omega) (by omega)
      . exact isContinuation_ofNat (by omega)
    . split
      . have hv : ((v / 4096 % 16 + 224) % 2 ^ 4 * 64 + (v / 64 % 64 + 128) % 2 ^ 6) * 64
            + (v % 64 + 128) % 2 ^ 6 = v := by omega
        simp only [List.cons_append, List.nil_append]
        rw [decodeLossy_three]
        . rw [lowBits_ofNat 4 (by omega), lowBits_ofNat 6 (by omega), lowBits_ofNat 6 (by omega),
            hv, hchar]
        . exact @ofNat_bounds _ 0xE0 0xEF (by omega) (by omega) (by omega)
        . apply isSecondByte_ofNat <;> omega
        . exact isContinuation_ofNat (by omega)
      . have hv : (((v / 262144 % 8 + 240) % 2 ^ 3 * 64 + (v / 4096 % 64 + 128) % 2 ^ 6) * 64
            + (v / 64 % 64 + 128) % 2 ^ 6) * 64 + (v % 64 + 128) % 2 ^ 6 = v := by omega
        simp only [List.cons_append, List.nil_append]
        rw [decodeLossy_four]
        . rw [lowBits_ofNat 3 (by omega), lowBits_ofNat 6 (by omega), lowBits_ofNat 6 (by omega),
            lowBits_ofNat 6 (by omega), hv, hchar]
        . exact @ofNat_bounds _ 0xF0 0xF4 (by omega) (by omega) (by omega)
        . apply isSecondByte_ofNat <;> omega
        . exact isContinuation_ofNat (by omega)
        . exact isContinuation_ofNat (by omega)

theorem decodeLossy_utf8Bytes (s : String) : decodeLossy (utf8Bytes s) = s.toList := by
  rw [utf8Bytes_eq_flatMap]
  induction s.toList with
  | nil => rfl
  | cons c cs ih => rw [List.flatMap_cons, decodeLossy_utf8EncodeChar_append, ih]

namespace Path

@[simp]
theorem display_ofString (s : String) : (ofString s).display = s := by
  rw [display, ofString, decodeLossy_utf8Bytes, String.ofList_toList]

theorem isAbsolute_ofString_eq_false {text : String} (h : text.toList.head? ≠ some '/')
    : (ofString text).isAbsolute = false := by
  cases htext : utf8Bytes text with
  | nil => simp [isAbsolute, ofString, htext]
  | cons b bs =>
    have hb : b ≠ slash := by
      rintro rfl
      apply h
      rw [← decodeLossy_utf8Bytes, htext, decodeLossy_one (by decide)]
      rfl
    simp [isAbsolute, ofString, htext, hb]

theorem isAbsolute_ofString_iff {text : String}
    : (ofString text).isAbsolute = true ↔ text.toList.head? = some '/' := by
  constructor
  . intro habsolute
    refine Decidable.byContradiction fun hhead => ?_
    rw [isAbsolute_ofString_eq_false hhead] at habsolute
    cases habsolute
  . intro hhead
    obtain ⟨cs, hcs⟩ := List.head?_eq_some_iff.mp hhead
    have hslash : String.utf8EncodeChar '/' = [slash] := by decide
    simp [isAbsolute, ofString, utf8Bytes_eq_flatMap, hcs, hslash]

theorem isAbsolute_ofString_display {p : Path} (h : p.isAbsolute = true)
    : (ofString p.display).isAbsolute = true := by
  rw [isAbsolute, beq_iff_eq, List.head?_eq_some_iff] at h
  obtain ⟨bytes, hbytes⟩ := h
  rw [isAbsolute_ofString_iff, display, String.toList_ofList, hbytes, decodeLossy_one (by decide)]
  rfl

end Path
end RunnerKit
