import Mathlib
import RunnerKit.Binary64.Basic
/-!
This module contains the numbers that words stand for. Words are compared by their place among all
words, and the main result is that the numbers compare in the same way.
-/

namespace RunnerKit
namespace Binary64

/--
The number that a word stands for: a fraction or one of the infinities, which lie below and above
all fractions. A NaN stands for no number.
-/
def number? (x : Binary64) : Option (WithBot (WithTop ℚ)) :=
  let size : ℚ := x.significand * 2 ^ x.exponent
  if x.isNaN then none
  else if x.isInfinite then some (if x.isNegative then ⊥ else ⊤)
  else some ((if x.isNegative then -size else size : ℚ) : WithTop ℚ)

def sizeAt (m : ℕ) : ℚ :=
  (if m / hiddenBit = 0 then m else hiddenBit + m % hiddenBit : ℕ) *
    2 ^ ((max 1 (m / hiddenBit) : ℕ) - 1075 : ℤ)

theorem size_eq (x : Binary64)
    : (x.significand * 2 ^ x.exponent : ℚ) = sizeAt x.magnitude := by
  unfold significand exponent sizeAt
  split
  . next h =>
    rw [h, Nat.mod_eq_of_lt (Nat.lt_of_div_eq_zero (by decide) h)]
    rfl
  . next h => rw [max_eq_right (Nat.one_le_iff_ne_zero.mpr h)]

theorem sizeAt_succ (m : ℕ)
    : sizeAt (m + 1) = sizeAt m + 2 ^ ((max 1 (m / hiddenBit) : ℕ) - 1075 : ℤ) := by
  unfold sizeAt hiddenBit
  by_cases hcarry : (m + 1) % 0x10000000000000 = 0
  . have hmod : m % 0x10000000000000 = 0xfffffffffffff := by omega
    have hdiv : (m + 1) / 0x10000000000000 = m / 0x10000000000000 + 1 := by omega
    rw [hdiv, hcarry, if_neg (by omega)]
    split
    . next hsmall =>
      have hm : m = 0xfffffffffffff := by omega
      have hunit : max 1 (m / 0x10000000000000 + 1) = max 1 (m / 0x10000000000000) := by omega
      rw [hunit]
      generalize (2 : ℚ) ^ (_ : ℤ) = unit
      rw [hm]
      push_cast
      ring
    . next hlarge =>
      -- The significand overflows and goes on at half its value, in units of double size.
      have hunit : ((max 1 (m / 0x10000000000000 + 1) : ℕ) - 1075 : ℤ) =
          ((max 1 (m / 0x10000000000000) : ℕ) - 1075 : ℤ) + 1 := by
        omega
      rw [hmod, hunit, zpow_add_one₀ two_ne_zero]
      push_cast
      ring
  . have hdiv : (m + 1) / 0x10000000000000 = m / 0x10000000000000 := by omega
    have hmod : (m + 1) % 0x10000000000000 = m % 0x10000000000000 + 1 := by omega
    rw [hdiv, hmod]
    split
    all_goals
      push_cast
      ring

theorem strictMono_sizeAt : StrictMono sizeAt := by
  apply strictMono_nat_of_lt_succ
  intro m
  rw [sizeAt_succ]
  exact lt_add_of_pos_right _ (by positivity)

@[simp]
theorem sizeAt_zero : sizeAt 0 = 0 := by
  simp [sizeAt]

def signedSizeAt (place : ℤ) : ℚ :=
  if place < 0 then -sizeAt place.natAbs else sizeAt place.natAbs

theorem strictMono_signedSizeAt : StrictMono signedSizeAt := by
  intro r s h
  have hpositive (place : ℤ) : 0 ≤ sizeAt place.natAbs := by
    rw [← sizeAt_zero]
    exact strictMono_sizeAt.monotone (Nat.zero_le _)
  unfold signedSizeAt
  split
  . split
    . exact neg_lt_neg (strictMono_sizeAt (by omega))
    . have hr : 0 < sizeAt r.natAbs := by
        rw [← sizeAt_zero]
        exact strictMono_sizeAt (by omega)
      have hs := hpositive s
      linarith
  . rw [if_neg (by omega)]
    exact strictMono_sizeAt (by omega)

def numberAt (place : ℤ) : WithBot (WithTop ℚ) :=
  if place = -infinityMagnitude then ⊥
  else if place = infinityMagnitude then ⊤
  else (signedSizeAt place : WithTop ℚ)

theorem strictMonoOn_numberAt
    : StrictMonoOn numberAt (Set.Icc (-infinityMagnitude) infinityMagnitude) := by
  rintro r ⟨hr, hr'⟩ s ⟨hs, hs'⟩ h
  have hinner : r ≠ infinityMagnitude ∧ s ≠ -infinityMagnitude := by omega
  unfold numberAt
  rw [if_neg hinner.1, if_neg hinner.2]
  split
  . split
    . exact bot_lt_top
    . exact WithBot.bot_lt_coe _
  . split
    . exact WithBot.coe_lt_coe.mpr (WithTop.coe_lt_top _)
    . exact WithBot.coe_lt_coe.mpr (WithTop.coe_lt_coe.mpr (strictMono_signedSizeAt h))

section

variable {x y : Binary64}

theorem rank_mem (h : x.isNaN = false)
    : x.rank ∈ Set.Icc (-infinityMagnitude : ℤ) infinityMagnitude := by
  simp only [isNaN, decide_eq_false_iff_not, Nat.not_lt] at h
  rw [Set.mem_Icc]
  unfold rank
  split <;> omega

theorem signedSizeAt_rank (x : Binary64)
    : signedSizeAt x.rank = if x.isNegative then -sizeAt x.magnitude else sizeAt x.magnitude := by
  unfold rank signedSizeAt
  cases x.isNegative with
  | false => simp
  | true =>
    rw [if_pos rfl, if_pos rfl, Int.natAbs_neg, Int.natAbs_natCast]
    split
    . rfl
    . next hzero =>
      have hmagnitude : x.magnitude = 0 := by omega
      rw [hmagnitude, sizeAt_zero, neg_zero]

theorem number?_of_isNaN (h : x.isNaN = true) : x.number? = none := by
  rw [number?, if_pos h]

theorem number?_eq_numberAt (h : x.isNaN = false) : x.number? = some (numberAt x.rank) := by
  have hbelow : x.rank = -infinityMagnitude ↔ x.isInfinite = true ∧ x.isNegative = true := by
    unfold rank isInfinite infinityMagnitude
    cases x.isNegative with
    | false => simp
    | true =>
      simp
      omega
  have habove : x.rank = infinityMagnitude ↔ x.isInfinite = true ∧ x.isNegative = false := by
    unfold rank isInfinite infinityMagnitude
    cases x.isNegative
    all_goals
      simp
      omega
  rw [number?, numberAt, signedSizeAt_rank, size_eq, h, if_neg Bool.false_ne_true]
  simp only [hbelow, habove]
  cases x.isInfinite <;> cases x.isNegative <;> rfl

theorem number?_eq_none_iff : x.number? = none ↔ x.isNaN = true := by
  constructor
  . intro hnone
    rw [← Bool.not_eq_false]
    intro h
    rw [number?_eq_numberAt h] at hnone
    cases hnone
  . exact number?_of_isNaN

theorem isNaN_of_number? {a : WithBot (WithTop ℚ)} (h : x.number? = some a) : x.isNaN = false := by
  rw [← Bool.not_eq_true, ← number?_eq_none_iff, h]
  simp

variable {a b : WithBot (WithTop ℚ)} (hx : x.number? = some a) (hy : y.number? = some b)
include hx hy

theorem cmp_rank : cmp x.rank y.rank = cmp a b := by
  have hx' := isNaN_of_number? hx
  have hy' := isNaN_of_number? hy
  rw [number?_eq_numberAt hx', Option.some.injEq] at hx
  rw [number?_eq_numberAt hy', Option.some.injEq] at hy
  rw [← hx, ← hy, strictMonoOn_numberAt.cmp_map_eq (rank_mem hx') (rank_mem hy')]

theorem partialCompare_eq_cmp : x.partialCompare y = some (cmp a b) := by
  rw [partialCompare, isNaN_of_number? hx, isNaN_of_number? hy, ← cmp_rank hx hy, cmp_eq_compare]
  rfl

theorem lt_eq_decide : x.lt y = decide (a < b) := by
  rw [lt, isNaN_of_number? hx, isNaN_of_number? hy]
  simp only [← cmp_eq_lt_iff, cmp_rank hx hy, Bool.not_false, Bool.true_and]

theorem numEq_eq_decide : x.numEq y = decide (a = b) := by
  rw [numEq, isNaN_of_number? hx, isNaN_of_number? hy]
  simp only [← cmp_eq_eq_iff, cmp_rank hx hy, Bool.not_false, Bool.true_and]

end

theorem number?_zero : zero.number? = some 0 := by
  have hplace : zero.rank = 0 := by decide
  rw [number?_eq_numberAt (by decide), hplace, numberAt, signedSizeAt]
  simp [infinityMagnitude]

theorem number?_one : one.number? = some 1 := by
  have hsize : (one.significand * 2 ^ one.exponent : ℚ) = 1 := by
    have hsignificand : one.significand = 0x10000000000000 := by decide
    have hexponent : one.exponent = -52 := by decide
    rw [hsignificand, hexponent]
    norm_num
  rw [number?, hsize]
  rfl

end Binary64
end RunnerKit
