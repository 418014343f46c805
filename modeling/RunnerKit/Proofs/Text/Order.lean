import RunnerKit.Proofs.Text.Bytes
/-!
This module contains the fact that texts are in the order that their bytes are in, so that a map
with texts for keys lists them in that order.
-/

namespace RunnerKit

section

variable {m n : Nat}

theorem ofNat_lt_ofNat_iff (hm : m < 256) (hn : n < 256)
    : UInt8.ofNat m < UInt8.ofNat n ↔ m < n := by
  rw [UInt8.lt_iff_toNat_lt, toNat_ofNat_of_lt hm, toNat_ofNat_of_lt hn]

theorem ofNat_eq_ofNat_iff (hm : m < 256) (hn : n < 256)
    : UInt8.ofNat m = UInt8.ofNat n ↔ m = n := by
  rw [← UInt8.toNat_inj, toNat_ofNat_of_lt hm, toNat_ofNat_of_lt hn]

theorem toNat_eq_of_mem_utf8EncodeChar {c : Char} (hn : n < 128)
    (h : UInt8.ofNat n ∈ String.utf8EncodeChar c) : c.toNat = n := by
  -- In an encoding of more than one byte all bytes have their highest bit set.
  have hbound : c.val.toNat < 0x110000 := by
    have := c.valid
    unfold UInt32.isValidChar Nat.isValidChar at this
    omega
  change c.val.toNat = n
  unfold String.utf8EncodeChar at h
  generalize c.val.toNat = v at h hbound
  dsimp only at h
  repeat' split at h
  all_goals
    simp only [List.mem_cons, List.not_mem_nil, or_false] at h
    simp (disch := omega) only [ofNat_eq_ofNat_iff] at h
    omega

end

theorem utf8EncodeChar_append_lt {c d : Char} (h : c < d) (front back : List UInt8)
    : String.utf8EncodeChar c ++ front < String.utf8EncodeChar d ++ back := by
  have hlt : c.val.toNat < d.val.toNat := h
  have hbound : d.val.toNat < 0x110000 := by
    have := d.valid
    unfold UInt32.isValidChar Nat.isValidChar at this
    omega
  unfold String.utf8EncodeChar
  generalize c.val.toNat = v at hlt
  generalize d.val.toNat = w at hlt hbound
  have hdigits (n : Nat) (hn : n < 0x110000)
      : n / 64 / 64 = n / 4096 ∧ n / 4096 / 64 = n / 262144 ∧ n / 262144 % 8 = n / 262144 := by
    rw [Nat.div_div_eq_div_mul, Nat.div_div_eq_div_mul]
    exact ⟨rfl, rfl, Nat.mod_eq_of_lt (by omega)⟩
  have hv := hdigits v (by omega)
  have hw := hdigits w (by omega)
  dsimp only
  -- A longer encoding begins with a greater byte. Encodings of one length hold the digits of their
  -- characters to the base 64, the first of them first.
  repeat' split
  all_goals
    simp only [List.cons_append, List.nil_append, List.cons_lt_cons_iff]
    simp (disch := omega) only [ofNat_lt_ofNat_iff, ofNat_eq_ofNat_iff]
    omega

theorem utf8Bytes_lt {s t : String} (h : s < t) : utf8Bytes s < utf8Bytes t := by
  rw [String.lt_iff] at h
  rw [utf8Bytes_eq_flatMap, utf8Bytes_eq_flatMap]
  generalize s.toList = cs at h
  generalize t.toList = ds at h
  induction cs generalizing ds with
  | nil =>
    cases ds with
    | nil => exact absurd h (List.lt_irrefl [])
    | cons d ds =>
      obtain ⟨b, bs, hbytes⟩ := List.exists_cons_of_ne_nil (@String.utf8EncodeChar_ne_nil d)
      rw [List.flatMap_nil, List.flatMap_cons, hbytes, List.cons_append]
      apply List.nil_lt_cons
  | cons c cs ih =>
    cases ds with
    | nil => exact absurd h (List.not_lt_nil _)
    | cons d ds =>
      rw [List.flatMap_cons, List.flatMap_cons]
      rw [List.cons_lt_cons_iff] at h
      cases h with
      | inl hlt =>
        apply utf8EncodeChar_append_lt
        exact hlt
      | inr heq =>
        rw [heq.1]
        apply List.append_left_lt
        apply ih
        exact heq.2

theorem compare_eq_lt_iff {s t : String} : compare s t = .lt ↔ utf8Bytes s < utf8Bytes t := by
  have hcompare : compare s t = .lt ↔ s < t := compareOfLessAndEq_eq_lt
  rw [hcompare]
  constructor
  . apply utf8Bytes_lt
  . intro h
    cases Std.lt_trichotomy s t with
    | inl hlt => exact hlt
    | inr hge =>
      cases hge with
      | inl heq =>
        rw [heq] at h
        exact absurd h (List.lt_irrefl _)
      | inr hgt => exact absurd (utf8Bytes_lt hgt) (List.lt_asymm h)

theorem utf8Bytes_injective : Function.Injective utf8Bytes := by
  intro s t h
  apply String.toList_injective
  rw [← decodeLossy_utf8Bytes, h, decodeLossy_utf8Bytes]

end RunnerKit
