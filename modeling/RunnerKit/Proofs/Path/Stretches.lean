import RunnerKit.Path.Basic
/-!
This module contains the theory of the stretches between slashes. The components of a path are a
function of its stretches alone, and the stretches of a concatenation are those of its parts.
-/

namespace RunnerKit
namespace Path

theorem splitSlashes_ne_nil (bytes : List UInt8) : splitSlashes bytes ≠ [] := by
  cases bytes with
  | nil => simp [splitSlashes]
  | cons b bs =>
    simp only [splitSlashes]
    split
    . simp
    . split <;> simp

theorem splitSlashes_cons_slash (bytes : List UInt8)
    : splitSlashes (slash :: bytes) = [] :: splitSlashes bytes := by
  have := splitSlashes_ne_nil bytes
  rw [splitSlashes]
  split
  . contradiction
  . next h => simp [h]

theorem splitSlashes_cons_of_ne {b : UInt8} (hb : b ≠ slash) {bytes : List UInt8} {name : Name}
    {names : List Name} (h : splitSlashes bytes = name :: names)
    : splitSlashes (b :: bytes) = (b :: name) :: names := by
  simp [splitSlashes, h, hb]

theorem eq_nil_of_splitSlashes_eq {bytes : List UInt8} (h : splitSlashes bytes = [[]])
    : bytes = [] := by
  cases bytes with
  | nil => rfl
  | cons b bs =>
    obtain ⟨name, names, hsplit⟩ := List.exists_cons_of_ne_nil (splitSlashes_ne_nil bs)
    by_cases hb : b = slash
    . rw [hb, splitSlashes_cons_slash, hsplit] at h
      simp at h
    . rw [splitSlashes_cons_of_ne hb hsplit] at h
      simp at h

theorem splitSlashes_append_slash (left right : List UInt8)
    : splitSlashes (left ++ slash :: right) = splitSlashes left ++ splitSlashes right := by
  induction left with
  | nil => rw [List.nil_append, splitSlashes_cons_slash]; rfl
  | cons b bs ih =>
    obtain ⟨name, names, hsplit⟩ := List.exists_cons_of_ne_nil (splitSlashes_ne_nil bs)
    rw [hsplit, List.cons_append] at ih
    by_cases hb : b = slash
    . subst hb
      rw [List.cons_append, splitSlashes_cons_slash, splitSlashes_cons_slash, hsplit, ih]
      rfl
    . rw [List.cons_append, splitSlashes_cons_of_ne hb ih, splitSlashes_cons_of_ne hb hsplit]
      rfl

theorem splitSlashes_of_slash_notMem {name : Name} (h : slash ∉ name)
    : splitSlashes name = [name] := by
  induction name with
  | nil => rfl
  | cons b bs ih =>
    simp only [List.mem_cons, not_or] at h
    rw [splitSlashes_cons_of_ne (Ne.symm h.1) (ih h.2)]

theorem slash_notMem_of_mem_splitSlashes {bytes : List UInt8} {name : Name}
    (h : name ∈ splitSlashes bytes) : slash ∉ name := by
  induction bytes generalizing name with
  | nil => simp_all [splitSlashes]
  | cons b bs ih =>
    obtain ⟨first, rest, hsplit⟩ := List.exists_cons_of_ne_nil (splitSlashes_ne_nil bs)
    by_cases hb : b = slash
    . subst hb
      rw [splitSlashes_cons_slash] at h
      cases h with
      | head => simp
      | tail _ h => exact ih h
    . rw [splitSlashes_cons_of_ne hb hsplit] at h
      cases h with
      | head =>
        have := ih (by rw [hsplit]; exact List.mem_cons_self)
        simp [this, Ne.symm hb]
      | tail _ h => exact ih (by rw [hsplit]; exact List.mem_cons_of_mem _ h)

theorem splitSlashes_joinSlashes {names : List Name} (hne : names ≠ [])
    (h : ∀ name ∈ names, slash ∉ name) : splitSlashes (joinSlashes names) = names := by
  induction names with
  | nil => contradiction
  | cons name names ih =>
    cases names with
    | nil => exact splitSlashes_of_slash_notMem (h name List.mem_cons_self)
    | cons next names =>
      rw [joinSlashes, splitSlashes_append_slash]
      . rw [splitSlashes_of_slash_notMem (h name List.mem_cons_self)]
        rw [ih (by simp) (fun n hn => h n (List.mem_cons_of_mem _ hn))]
        rfl
      . simp

def componentsOfNames (names : List Name) : List Component :=
  (names.filter (!isIgnored ·)).map componentOfName

def leading : List Name → List Component
  | [] :: _ :: _ => [.root]
  | [b] :: _ => if b = dot then [.current] else []
  | _ => []

@[simp]
theorem componentsOfNames_append (names others : List Name)
    : componentsOfNames (names ++ others) = componentsOfNames names ++ componentsOfNames others := by
  simp [componentsOfNames]

theorem componentsOfNames_cons (name : Name) (names : List Name)
    : componentsOfNames (name :: names) = componentsOfNames [name] ++ componentsOfNames names := by
  rw [← componentsOfNames_append, List.singleton_append]

theorem componentsOfNames_of_isIgnored {name : Name} (h : isIgnored name = true)
    : componentsOfNames [name] = [] := by
  simp [componentsOfNames, h]

theorem componentsOfNames_of_not_isIgnored {name : Name} (h : isIgnored name = false)
    : componentsOfNames [name] = [componentOfName name] := by
  simp [componentsOfNames, h]

@[simp]
theorem isIgnored_nil : isIgnored [] = true := rfl

@[simp]
theorem isIgnored_dot : isIgnored [dot] = true := rfl

theorem leading_append {names : List Name} (others : List Name) (hne : names ≠ [])
    (h : names ≠ [[]]) : leading (names ++ others) = leading names := by
  match names with
  | [] => contradiction
  | [] :: [] => contradiction
  | [] :: _ :: _ => rfl
  | [b] :: _ => rfl
  | (b :: c :: n) :: _ => rfl

theorem leading_append_congr {names others others' : List Name} (hne : names ≠ [])
    (h : others ≠ []) (h' : others' ≠ []) : leading (names ++ others) = leading (names ++ others') := by
  by_cases hnil : names = [[]]
  . obtain ⟨first, rest, rfl⟩ := List.exists_cons_of_ne_nil h
    obtain ⟨first', rest', rfl⟩ := List.exists_cons_of_ne_nil h'
    rw [hnil]
    rfl
  . rw [leading_append _ hne hnil, leading_append _ hne hnil]

theorem leading_of_not_isIgnored {name : Name} {names : List Name} (h : isIgnored name = false)
    : leading (name :: names) = [] := by
  match name with
  | [] => simp at h
  | [b] =>
    have : b ≠ dot := by
      intro hb
      simp [hb] at h
    simp [leading, this]
  | b :: c :: n => rfl

end Path
end RunnerKit
