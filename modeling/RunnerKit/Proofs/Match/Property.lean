import Mathlib.Data.List.Induction
import RunnerKit.Match.Property
/-!
This module contains the laws of the properties of a match. They are what `Properties.get?` finds
under each key, and the list of them says the same.
-/

namespace RunnerKit
namespace Properties

variable {p q : Properties} {key : String} {value : PropertyValue}

@[simp]
theorem get?_empty (key : String) : empty.get? key = none := by
  unfold get? empty
  simp

theorem get?_insert (p : Properties) (key : String) (value : PropertyValue) (other : String)
    : (p.insert key value).get? other = if key = other then some value else p.get? other := by
  unfold get? insert
  rw [Std.TreeMap.getElem?_insert]
  simp only [Std.LawfulEqOrd.compare_eq_iff_eq]

theorem mem_toList_iff : (key, value) ∈ p.toList ↔ p.get? key = some value := by
  unfold toList get?
  apply Std.TreeMap.mem_toList_iff_getElem?_eq_some

theorem nodup_keys (p : Properties) : (p.toList.map Prod.fst).Nodup := by
  unfold toList
  rw [Std.TreeMap.map_fst_toList_eq_keys]
  apply Std.TreeMap.nodup_keys

theorem toList_eq_iff : p.toList = q.toList ↔ ∀ key, p.get? key = q.get? key := by
  constructor
  . intro h key
    apply Option.ext
    intro value
    rw [← mem_toList_iff, ← mem_toList_iff, h]
  . intro h
    apply Std.TreeMap.Equiv.toList_eq
    apply Std.TreeMap.Equiv.of_forall_constGet?_eq
    exact h

def ofEntries (entries : List (String × PropertyValue)) : Properties :=
  entries.foldl (fun p (key, value) => p.insert key value) .empty

theorem get?_ofEntries_iff {entries : List (String × PropertyValue)}
    (hdistinct : (entries.map Prod.fst).Nodup)
    : (ofEntries entries).get? key = some value ↔ (key, value) ∈ entries := by
  -- The last entry is the one that was inserted last.
  induction entries using List.reverseRecOn with
  | nil => simp [ofEntries]
  | append_singleton entries last ih =>
    rw [List.map_append, List.nodup_append] at hdistinct
    obtain ⟨hfront, -, hlast⟩ := hdistinct
    have hconcat : ofEntries (entries ++ [last]) = (ofEntries entries).insert last.1 last.2 := by
      unfold ofEntries
      rw [List.foldl_append]
      rfl
    rw [hconcat, get?_insert, List.mem_append, List.mem_singleton]
    split
    . next hkey =>
      have habsent : (key, value) ∉ entries := by
        intro hmem
        apply hlast key (List.mem_map_of_mem hmem) last.1
        . simp
        . exact hkey.symm
      simp [habsent, Prod.ext_iff, hkey, eq_comm]
    . next hkey =>
      have hother : (key, value) ≠ last := by
        rintro rfl
        exact hkey rfl
      rw [ih hfront]
      simp [hother]

end Properties
end RunnerKit
