import RunnerKit.Proofs.Path.Components
/-!
This module contains the components of parents: a parent has all components of its path but the last.
-/

namespace RunnerKit
namespace Path

theorem componentsOfNames_eq_append {names front : List Name} {last : Name}
    (h : dropIgnoredEnd names = front ++ [last])
    : componentsOfNames names = componentsOfNames front ++ [componentOfName last] := by
  rw [← componentsOfNames_dropIgnoredEnd names, h, componentsOfNames_append]
  rw [componentsOfNames_of_not_isIgnored (not_isIgnored_of_dropIgnoredEnd h)]

theorem mem_of_mem_dropIgnoredEnd {names : List Name} {name : Name} (h : name ∈ dropIgnoredEnd names)
    : name ∈ names := by
  obtain ⟨ignored, hnames, -⟩ := append_ignored names
  rw [hnames]
  exact List.mem_append_left _ h

def parentNames (body : List UInt8) : List Name :=
  dropIgnoredEnd (dropIgnoredEnd (splitSlashes body)).dropLast

theorem slash_notMem_of_mem_parentNames {body : List UInt8} {name : Name}
    (h : name ∈ parentNames body) : slash ∉ name := by
  apply slash_notMem_of_mem_splitSlashes
  apply mem_of_mem_dropIgnoredEnd
  apply List.dropLast_subset
  apply mem_of_mem_dropIgnoredEnd
  exact h

theorem splitSlashes_joinSlashes_parentNames {body : List UInt8} (h : parentNames body ≠ [])
    : splitSlashes (joinSlashes (parentNames body)) = parentNames body :=
  splitSlashes_joinSlashes h fun _ => slash_notMem_of_mem_parentNames

theorem componentsOfNames_parentNames (body : List UInt8)
    : componentsOfNames (parentNames body) = (componentsOfNames (splitSlashes body)).dropLast := by
  rw [parentNames, componentsOfNames_dropIgnoredEnd]
  cases List.eq_nil_or_concat (dropIgnoredEnd (splitSlashes body)) with
  | inl h =>
    rw [← componentsOfNames_dropIgnoredEnd (splitSlashes body), h]
    rfl
  | inr h =>
    obtain ⟨front, last, h⟩ := h
    rw [List.concat_eq_append] at h
    rw [componentsOfNames_eq_append h, h, List.dropLast_concat, List.dropLast_concat]

theorem componentsOfNames_joinSlashes_parentNames (body : List UInt8)
    : componentsOfNames (splitSlashes (joinSlashes (parentNames body)))
        =
      (componentsOfNames (splitSlashes body)).dropLast := by
  rw [← componentsOfNames_parentNames]
  by_cases h : parentNames body = []
  . rw [h]
    rfl
  . rw [splitSlashes_joinSlashes_parentNames h]

theorem componentsOfNames_eq_nil_iff {names : List Name}
    : componentsOfNames names = [] ↔ dropIgnoredEnd names = [] := by
  constructor
  . intro h
    cases List.eq_nil_or_concat (dropIgnoredEnd names) with
    | inl hnil => exact hnil
    | inr hconcat =>
      obtain ⟨front, last, hconcat⟩ := hconcat
      rw [List.concat_eq_append] at hconcat
      rw [componentsOfNames_eq_append hconcat] at h
      simp at h
  . intro h
    rw [← componentsOfNames_dropIgnoredEnd, h]
    rfl

theorem parent?_of_split {p : Path} {start : Start} {body : List UInt8}
    (h : p.split = (start, body)) : p.parent? =
      if componentsOfNames (splitSlashes body) = [] then
        if start = .current then some ⟨[]⟩ else none
      else
        some ⟨start.bytes ++ joinSlashes (parentNames body)⟩ := by
  unfold parent?
  rw [h]
  simp only [componentsOfNames_eq_nil_iff]
  split
  . next hnames => rw [if_pos hnames]
  . next hnames => rw [if_neg hnames, parentNames]

theorem components_of_split {p : Path} {start : Start} {body : List UInt8}
    (h : p.split = (start, body))
    : p.components = start.components ++ componentsOfNames (splitSlashes body) := by
  simp [components, h, componentsOfNames]

theorem dropLast_components_of_parent?_eq_none {p : Path} (h : p.parent? = none)
    : p.components.dropLast = [] := by
  have hsplit : p.split = (p.split.1, p.split.2) := rfl
  rw [parent?_of_split hsplit] at h
  rw [components_of_split hsplit]
  split at h
  . next hnil =>
    rw [hnil]
    cases p.split.1 <;> rfl
  . simp at h

theorem split_eq_of_not_isIgnored {p : Path} {name : Name} {names : List Name}
    (h : splitSlashes p.bytes = name :: names) (hname : isIgnored name = false)
    : p.split = (.none, p.bytes) := by
  cases p.shape with
  | empty => rfl
  | root body =>
    rw [splitSlashes_cons_slash, List.cons.injEq] at h
    simp [← h.1] at hname
  | dot =>
    rw [splitSlashes_of_slash_notMem (by decide), List.cons.injEq] at h
    simp [← h.1] at hname
  | current body =>
    rw [splitSlashes_dot_slash, List.cons.injEq] at h
    simp [← h.1] at hname
  | plain hsplit => exact hsplit

theorem parentNames_prefix (body : List UInt8) : parentNames body <+: splitSlashes body := by
  have hdrop (names : List Name) : dropIgnoredEnd names <+: names := by
    obtain ⟨ignored, hnames, -⟩ := append_ignored names
    exact ⟨ignored, hnames.symm⟩
  apply (hdrop _).trans
  apply (List.dropLast_prefix _).trans
  apply hdrop

theorem split_append_joinSlashes {p : Path} {start : Start} {body : List UInt8}
    (h : p.split = (start, body))
    : split ⟨start.bytes ++ joinSlashes (parentNames body)⟩
        =
      (start, joinSlashes (parentNames body)) := by
  have hfront := parentNames_prefix body
  cases p.shape with
  | empty =>
    cases h
    rfl
  | root =>
    cases h
    rfl
  | dot =>
    cases h
    rfl
  | current =>
    -- The dot is no stretch of the body, which begins with the slash after it.
    cases h
    rw [splitSlashes_cons_slash] at hfront
    match parentNames _, hfront with
    | [], _ => rfl
    | first :: rest, hfront =>
      have : first = [] := (List.cons_prefix_cons.mp hfront).1
      subst this
      cases rest <;> rfl
  | plain hplain hnames hname =>
    rw [hplain] at h
    cases h
    rw [hnames] at hfront
    by_cases hnil : parentNames p.bytes = []
    . rw [hnil]
      rfl
    . obtain ⟨first, rest, hfirst⟩ := List.exists_cons_of_ne_nil hnil
      have hjoin := splitSlashes_joinSlashes_parentNames hnil
      rw [hfirst] at hfront hjoin ⊢
      have : first = _ := (List.cons_prefix_cons.mp hfront).1
      subst this
      exact split_eq_of_not_isIgnored hjoin hname

theorem components_of_parent?_eq_some {p q : Path} (h : p.parent? = some q)
    : q.components = p.components.dropLast := by
  have hsplit : p.split = (p.split.1, p.split.2) := rfl
  rw [parent?_of_split hsplit] at h
  rw [components_of_split hsplit]
  split at h
  . next hnil =>
    split at h
    . next hcurrent =>
      simp only [Option.some.injEq] at h
      rw [hnil, ← h, hcurrent]
      rfl
    . simp at h
  . next hne =>
    simp only [Option.some.injEq] at h
    rw [← h, components_of_split (split_append_joinSlashes hsplit)]
    rw [componentsOfNames_joinSlashes_parentNames, List.dropLast_append_of_ne_nil hne]

end Path
end RunnerKit
