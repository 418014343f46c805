import RunnerKit.Proofs.Storage.Replay
/-!
This module contains what calls leave alone that concern one root only.
-/

namespace RunnerKit

def Call.Concerns (root : Path) : Call → Prop
  | .createDirAll path =>
    path.components <+: root.components ∨ root.components <+: path.components
  | .writeFile path _ | .setExecutable path | .removeDirAll path =>
    root.components <+: path.components

namespace Memory

def ProperAncestor (root : Path) (place : List Component) : Prop :=
  place ≠ [] ∧ place <+: root.components ∧ place ≠ root.components

/--
Two memories agree at all places that are not below a root, except that directories on the way to
the root may be new.
-/
structure SameOutside (root : Path) (before after : Memory) : Prop where
  files : ∀ {place : List Component}, ¬root.components <+: place →
    after.files[place]? = before.files[place]?
  executables : ∀ {place : List Component}, ¬root.components <+: place →
    (place ∈ after.executables ↔ place ∈ before.executables)
  directories : ∀ {place : List Component}, ¬root.components <+: place →
    place ∈ before.directories → place ∈ after.directories
  ancestors : ∀ {place : List Component}, ¬root.components <+: place →
    place ∈ after.directories → place ∈ before.directories ∨ ProperAncestor root place

theorem SameOutside.refl (root : Path) (s : Memory) : SameOutside root s s where
  files _ := rfl
  executables _ := Iff.rfl
  directories _ h := h
  ancestors _ h := Or.inl h

theorem SameOutside.trans {root : Path} {a b c : Memory} (hab : SameOutside root a b)
    (hbc : SameOutside root b c) : SameOutside root a c where
  files h := (hbc.files h).trans (hab.files h)
  executables h := (hbc.executables h).trans (hab.executables h)
  directories h hplace := hbc.directories h (hab.directories h hplace)
  ancestors h hplace := by
    cases hbc.ancestors h hplace with
    | inl hplace => exact hab.ancestors h hplace
    | inr hancestor => exact Or.inr hancestor

theorem properAncestor_of_isPrefix {root path : Path} {place : List Component}
    (hroot : path.components <+: root.components ∨ root.components <+: path.components)
    (hplace : ¬root.components <+: place) (hne : place ≠ []) (hfront : place <+: path.components)
    : ProperAncestor root place := by
  refine ⟨hne, ?_, ?_⟩
  . cases hroot with
    | inl hroot => exact hfront.trans hroot
    | inr hroot => exact (List.prefix_or_prefix_of_prefix hfront hroot).resolve_right hplace
  . intro heq
    exact hplace (heq ▸ List.prefix_rfl)

theorem SameOutside.after {root : Path} (s : Memory) {call : Call} (h : call.Concerns root)
    : SameOutside root s (s.after call) := by
  cases call with
  | createDirAll path =>
    refine ⟨fun _ => rfl, fun _ => Iff.rfl, ?_, ?_⟩
    . intro place _ hmem
      simp only [Memory.after, mem_directories_createDirAll]
      exact Or.inl hmem
    . intro place hplace hmem
      simp only [Memory.after, mem_directories_createDirAll] at hmem
      cases hmem with
      | inl hmem => exact Or.inl hmem
      | inr hnew => exact Or.inr (properAncestor_of_isPrefix h hplace hnew.1 hnew.2)
  | writeFile path content =>
    refine ⟨?_, fun _ => Iff.rfl, fun _ h => h, fun _ h => Or.inl h⟩
    intro place hplace
    simp only [Memory.after, getElem?_files_put]
    rw [if_neg]
    intro heq
    exact hplace (heq ▸ h)
  | setExecutable path =>
    refine ⟨fun _ => rfl, ?_, fun _ h => h, fun _ h => Or.inl h⟩
    intro place hplace
    simp only [Memory.after, mem_executables_setExecutable, or_iff_left_iff_imp]
    intro heq
    exact absurd (heq ▸ h) hplace
  | removeDirAll path =>
    have hpath {place : List Component} (hplace : ¬root.components <+: place)
        : ¬path.components <+: place := by
      intro hfront
      exact hplace (List.IsPrefix.trans h hfront)
    refine ⟨?_, ?_, ?_, ?_⟩
    . intro place hplace
      simp only [Memory.after, getElem?_files_removeDirAll, if_neg (hpath hplace)]
    . intro place hplace
      simp [Memory.after, hpath hplace]
    . intro place hplace hmem
      simp [Memory.after, hpath hplace, hmem]
    . intro place hplace hmem
      simp only [Memory.after, mem_directories_removeDirAll] at hmem
      exact Or.inl hmem.1

theorem Replay.sameOutside {faulty : Bool} {root : Path} {s s' : Memory} {xs : List Exchange}
    (h : Replay faulty s xs s')
    (hxs : ∀ call answer, .call call answer ∈ xs → call.Concerns root) : SameOutside root s s' := by
  induction h with
  | nil => exact .refl root _
  | @done s _ _ call _ _ ih =>
    apply (SameOutside.after s (hxs call _ List.mem_cons_self)).trans
    apply ih
    intro call answer hmem
    exact hxs call answer (List.mem_cons_of_mem _ hmem)
  | failed _ _ ih =>
    apply ih
    intro call answer hmem
    exact hxs call answer (List.mem_cons_of_mem _ hmem)
  | asked _ _ ih =>
    apply ih
    intro call answer hmem
    exact hxs call answer (List.mem_cons_of_mem _ hmem)

structure Cleared (root : Path) (s : Memory) : Prop where
  files : ∀ {place : List Component}, root.components <+: place → s.files[place]? = none
  directories : ∀ {place : List Component}, root.components <+: place → place ∉ s.directories
  executables : ∀ {place : List Component}, root.components <+: place → place ∉ s.executables

theorem cleared_removeDirAll (root : Path) (s : Memory) : Cleared root (s.removeDirAll root) where
  files h := by simp [h]
  directories h := by simp [h]
  executables h := by simp [h]

theorem Cleared.not_holding {root path : Path} {s : Memory} (h : Cleared root s)
    (hpath : root.components <+: path.components)
    : s.read? path = none ∧ s.isExecutable path = false := by
  refine ⟨?_, ?_⟩
  . rw [read?, h.files hpath]
    rfl
  . rw [isExecutable, ← Bool.not_eq_true, Std.TreeSet.contains_iff_mem]
    exact h.executables hpath

theorem Replay.cleared {faulty : Bool} {root : Path} {s s' : Memory} {xs : List Exchange}
    (h : Replay faulty s (xs ++ [.call (.removeDirAll root) (.ok ())]) s') : Cleared root s' := by
  obtain ⟨t, -, h⟩ := h.of_append
  cases h with
  | done _ h =>
    rw [h.eq_of_nil]
    exact cleared_removeDirAll root t

structure Restored (root : Path) (before after : Memory) : Prop where
  files : ∀ (place : List Component), after.files[place]? = before.files[place]?
  directories : ∀ place ∈ before.directories, place ∈ after.directories
  ancestors : ∀ place ∈ after.directories, place ∈ before.directories ∨ ProperAncestor root place
  executables : ∀ (place : List Component),
    place ∈ after.executables ↔ place ∈ before.executables ∧ ¬root.components <+: place

theorem Restored.of_missing {root : Path} {before after : Memory} (hclosed : before.Closed)
    (hroot : root.isEmpty = false) (hmissing : before.holds root = false)
    (hsame : SameOutside root before after) (hcleared : Cleared root after)
    : Restored root before after := by
  constructor
  . intro place
    by_cases hplace : root.components <+: place
    . rw [hcleared.files hplace, hclosed.getElem?_files_of_missing hroot hmissing hplace]
    . exact hsame.files hplace
  . intro place hmem
    apply hsame.directories _ hmem
    intro hplace
    exact hclosed.notMem_directories_of_missing hroot hmissing hplace hmem
  . intro place hmem
    apply hsame.ancestors _ hmem
    intro hplace
    exact hcleared.directories hplace hmem
  . intro place
    by_cases hplace : root.components <+: place
    . simp [hplace, hcleared.executables hplace]
    . simp [hplace, hsame.executables hplace]

end Memory
end RunnerKit
