import RunnerKit.Path.Basic
/-!
This module contains the fact that components, and with them the places that a storage knows, are in
a linear order.
-/

namespace RunnerKit
namespace Component

def name : Component → Name
  | .normal name => name
  | _ => []

theorem compare_eq_compareLex (a b : Component)
    : compare a b = compareLex (compareOn rank) (compareOn name) a b := by
  cases a <;> cases b <;> rfl

instance : Std.TransOrd Component where
  eq_swap {a b} := by
    rw [compare_eq_compareLex, compare_eq_compareLex]
    apply Std.OrientedCmp.eq_swap
  isLE_trans {a b c} hab hbc := by
    rw [compare_eq_compareLex] at *
    exact Std.TransCmp.isLE_trans hab hbc

instance : Std.LawfulEqOrd Component where
  eq_of_compare {a b} h := by
    rw [compare_eq_compareLex, compareLex_eq_eq] at h
    have hrank : a.rank = b.rank := Std.LawfulEqOrd.eq_of_compare h.1
    have hname : a.name = b.name := Std.LawfulEqOrd.eq_of_compare h.2
    cases a <;> cases b <;> simp_all [rank, name]

end Component
end RunnerKit
