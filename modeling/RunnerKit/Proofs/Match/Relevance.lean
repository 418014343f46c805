import RunnerKit.Proofs.Binary64.Order
import RunnerKit.Proofs.Match.Building
import RunnerKit.Proofs.Match.Wire
/-!
This module contains the order of relevances, which are the numbers from zero to one whatever number
they are made from, and which matches are equal to themselves.
-/

namespace RunnerKit

namespace Relevance

variable {x y : Binary64} {a b : WithBot (WithTop ℚ)}

structure ClampsToUnit (clamp : Binary64 → Binary64) : Prop where
  within : ∀ x, ∃ a, (clamp x).number? = some a ∧ 0 ≤ a ∧ a ≤ 1
  idempotent : ∀ x, (clamp (clamp x)).bits = (clamp x).bits
  kept : ∀ x a, x.number? = some a → 0 ≤ a → a ≤ 1 → (clamp x).bits = x.bits
  zero_of_no_number : ∀ x, x.number? = none → (clamp x).bits = 0
  monotone : ∀ x y a b, x.number? = some a → y.number? = some b → a ≤ b →
    ∃ a' b', (clamp x).number? = some a' ∧ (clamp y).number? = some b' ∧ a' ≤ b'

def AtMost (r s : Relevance) : Prop := ∃ o, r.partialCompare s = some o ∧ o.isLE = true

structure TotallyOrdered (make : Binary64 → Relevance) : Prop where
  compares : ∀ x y, ∃ a b, (make x).value.number? = some a ∧ (make y).value.number? = some b ∧
    (make x).partialCompare (make y) = some (cmp a b)
  equal_iff : ∀ x y, (make x).numEq (make y) = true ↔
    (make x).partialCompare (make y) = some .eq
  transitive : ∀ x y z, (make x).AtMost (make y) → (make y).AtMost (make z) →
    (make x).AtMost (make z)
  least : ∀ x, min.AtMost (make x)
  greatest : ∀ x, (make x).AtMost max

theorem value_ofNumber_of_no_number (h : x.number? = none)
    : (ofNumber x).value = Binary64.zero := by
  rw [ofNumber, dif_pos (Binary64.number?_eq_none_iff.mp h)]
  rfl

theorem value_ofNumber (h : x.number? = some a)
    : (ofNumber x).value =
      if a < 0 then Binary64.zero else if 1 < a then Binary64.one else x := by
  rw [ofNumber, dif_neg (by rw [Binary64.isNaN_of_number? h]; exact Bool.false_ne_true)]
  simp only [Binary64.clampUnit, Binary64.lt_eq_decide h Binary64.number?_zero,
    Binary64.lt_eq_decide Binary64.number?_one h, decide_eq_true_eq]

theorem number?_ofNumber (h : x.number? = some a)
    : (ofNumber x).value.number? = some (Max.max 0 (Min.min a 1)) := by
  rw [value_ofNumber h]
  split
  . next hlow =>
    rw [Binary64.number?_zero, max_eq_left (min_le_of_left_le hlow.le)]
  . next hlow =>
    rw [not_lt] at hlow
    split
    . next hhigh => rw [Binary64.number?_one, min_eq_right hhigh.le, max_eq_right zero_le_one]
    . next hhigh =>
      rw [not_lt] at hhigh
      rw [h, min_eq_left hhigh, max_eq_right hlow]

theorem exists_number?_value (r : Relevance)
    : ∃ a, r.value.number? = some a ∧ 0 ≤ a ∧ a ≤ 1 := by
  rw [← r.ofNumber_value]
  cases hnumber : r.value.number? with
  | none =>
    rw [value_ofNumber_of_no_number hnumber]
    exact ⟨0, Binary64.number?_zero, le_rfl, zero_le_one⟩
  | some a =>
    refine ⟨_, number?_ofNumber hnumber, le_max_left _ _, ?_⟩
    exact max_le zero_le_one (min_le_right _ _)

theorem clampsToUnit_ofNumber : ClampsToUnit fun x => (ofNumber x).value where
  within x := (ofNumber x).exists_number?_value
  idempotent x := by rw [ofNumber_value]
  kept x a h hlow hhigh := by
    rw [value_ofNumber h, if_neg hlow.not_gt, if_neg hhigh.not_gt]
  zero_of_no_number x h := by
    rw [value_ofNumber_of_no_number h]
    rfl
  monotone x y a b hx hy h :=
    ⟨_, _, number?_ofNumber hx, number?_ofNumber hy, max_le_max le_rfl (min_le_min h le_rfl)⟩

/-! The negative zero is a number from zero to one. -/

example : (ofNumber ⟨0x8000000000000000⟩).value.bits = 0x8000000000000000 := by decide

theorem partialCompare_eq_cmp {r s : Relevance} (hr : r.value.number? = some a)
    (hs : s.value.number? = some b) : r.partialCompare s = some (cmp a b) :=
  Binary64.partialCompare_eq_cmp hr hs

theorem atMost_iff {r s : Relevance} (hr : r.value.number? = some a)
    (hs : s.value.number? = some b) : r.AtMost s ↔ a ≤ b := by
  have hle : (cmp a b).isLE = true ↔ a ≤ b := by
    rw [cmp_eq_compare, ← compare_le_iff_le]
    exact Ordering.isLE_iff_ne_gt
  rw [AtMost, partialCompare_eq_cmp hr hs]
  simp [hle]

theorem totallyOrdered_ofNumber : TotallyOrdered ofNumber where
  compares x y := by
    obtain ⟨a, ha, _⟩ := (ofNumber x).exists_number?_value
    obtain ⟨b, hb, _⟩ := (ofNumber y).exists_number?_value
    exact ⟨a, b, ha, hb, partialCompare_eq_cmp ha hb⟩
  equal_iff x y := by
    obtain ⟨a, ha, _⟩ := (ofNumber x).exists_number?_value
    obtain ⟨b, hb, _⟩ := (ofNumber y).exists_number?_value
    rw [numEq, Binary64.numEq_eq_decide ha hb, partialCompare_eq_cmp ha hb, decide_eq_true_eq,
      Option.some.injEq, cmp_eq_eq_iff]
  transitive x y z hxy hyz := by
    obtain ⟨a, ha, _⟩ := (ofNumber x).exists_number?_value
    obtain ⟨b, hb, _⟩ := (ofNumber y).exists_number?_value
    obtain ⟨c, hc, _⟩ := (ofNumber z).exists_number?_value
    rw [atMost_iff ha hb] at hxy
    rw [atMost_iff hb hc] at hyz
    rw [atMost_iff ha hc]
    exact hxy.trans hyz
  least x := by
    obtain ⟨a, ha, hlow, _⟩ := (ofNumber x).exists_number?_value
    exact (atMost_iff Binary64.number?_zero ha).mpr hlow
  greatest x := by
    obtain ⟨a, ha, _, hhigh⟩ := (ofNumber x).exists_number?_value
    exact (atMost_iff ha Binary64.number?_one).mpr hhigh

end Relevance

theorem Binary64.numEq_self_iff {x : Binary64} : x.numEq x = true ↔ x.number? ≠ none := by
  rw [Ne, number?_eq_none_iff]
  simp [numEq]

theorem PropertyValue.numEq_self_iff {value : PropertyValue}
    : value.numEq value = true ↔ ∀ x, value = .number x → x.number? ≠ none := by
  cases value with
  | number x => simp [numEq, Binary64.numEq_self_iff]
  | _ => simp [numEq]

theorem Properties.numEq_self_iff {p : Properties}
    : p.numEq p = true ↔ ∀ key x, p.get? key = some (.number x) → x.number? ≠ none := by
  have hentries : p.numEq p = true ↔ ∀ key value, (key, value) ∈ p.toList →
      value.numEq value = true := by
    simp [numEq, List.zip_eq_zipWith, List.zipWith_self]
  simp only [hentries, mem_toList_iff, PropertyValue.numEq_self_iff]
  constructor
  . intro h key x hvalue
    exact h key _ hvalue x rfl
  . rintro h key _ hvalue x rfl
    exact h key x hvalue

theorem Match.numEq_self_iff {m : Match}
    : m.numEq m = true ↔ ∀ key x, m.properties.get? key = some (.number x) → x.number? ≠ none := by
  have hrelevance : m.relevance.numEq m.relevance = true := by
    obtain ⟨a, ha, _⟩ := m.relevance.exists_number?_value
    rw [Relevance.numEq, Binary64.numEq_eq_decide ha ha, decide_eq_true_eq]
  simp [numEq, hrelevance, Properties.numEq_self_iff]

theorem Relevance.ordered_and_match_numEq_iff
    : ClampsToUnit (fun x => (ofNumber x).value) ∧ TotallyOrdered ofNumber ∧
      ∀ id text steps,
        let m := Match.build id text steps
        m.numEq m = true ↔
          ∀ key x, m.properties.get? key = some (.number x) → x.number? ≠ none := by
  refine ⟨clampsToUnit_ofNumber, totallyOrdered_ofNumber, ?_⟩
  intro id text steps m
  exact Match.numEq_self_iff

end RunnerKit
