import Std.Data.TreeMap
/-!
This module contains the laws of the values of an ordered map. Where the values know the keys that
they are under, they are in the order of these keys.
-/

namespace RunnerKit

variable {α β : Type} [Ord α] {t : Std.TreeMap α β}

theorem values_eq_map_toList (t : Std.TreeMap α β) : t.values = t.toList.map Prod.snd := by
  change t.foldr (fun _ b bs => b :: bs) [] = _
  rw [Std.TreeMap.foldr_eq_foldr_toList]
  induction t.toList with
  | nil => rfl
  | cons entry entries ih => rw [List.foldr_cons, ih, List.map_cons]

theorem length_values (t : Std.TreeMap α β) : t.values.length = t.size := by
  rw [values_eq_map_toList, List.length_map, Std.TreeMap.length_toList]

variable [Std.TransOrd α] [Std.LawfulEqOrd α]

theorem mem_values_iff {b : β} : b ∈ t.values ↔ ∃ a : α, t[a]? = some b := by
  simp [values_eq_map_toList, Std.TreeMap.mem_toList_iff_getElem?_eq_some]

theorem pairwise_values {key : β → α} (hkey : ∀ a b, t[a]? = some b → key b = a)
    : t.values.Pairwise fun b c => compare (key b) (key c) = .lt := by
  rw [values_eq_map_toList, List.pairwise_map]
  apply Std.TreeMap.ordered_keys_toList.imp_of_mem
  intro entry other hentry hother hlt
  rw [Std.TreeMap.mem_toList_iff_getElem?_eq_some] at hentry hother
  rw [hkey _ _ hentry, hkey _ _ hother]
  exact hlt

theorem map_values_eq_keys {key : β → α} (hkey : ∀ a b, t[a]? = some b → key b = a)
    : t.values.map key = t.keys := by
  rw [values_eq_map_toList, ← Std.TreeMap.map_fst_toList_eq_keys, List.map_map]
  apply List.map_congr_left
  intro entry hentry
  apply hkey
  exact Std.TreeMap.mem_toList_iff_getElem?_eq_some.mp hentry

theorem map_values_congr {γ : Type} {t' : Std.TreeMap α β} {f : β → γ}
    (h : ∀ a : α, t[a]?.map f = t'[a]?.map f) : t.values.map f = t'.values.map f := by
  have hequiv : (t.map fun _ b => f b).Equiv (t'.map fun _ b => f b) := by
    apply Std.TreeMap.Equiv.of_forall_constGet?_eq
    intro a
    rw [Std.TreeMap.getElem?_map, Std.TreeMap.getElem?_map, h]
  have hentries := congrArg (List.map Prod.snd) hequiv.toList_eq
  rw [Std.TreeMap.toList_map, Std.TreeMap.toList_map, List.map_map, List.map_map] at hentries
  rw [values_eq_map_toList, values_eq_map_toList, List.map_map, List.map_map]
  exact hentries

end RunnerKit
