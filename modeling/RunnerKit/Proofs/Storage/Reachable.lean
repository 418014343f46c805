import RunnerKit.Proofs.Storage.Memory
/-!
This module contains the memories that calls can lead to. In each of them every directory and every
file lies in a directory, so nothing lies below a place that does not exist.
-/

namespace RunnerKit
namespace Memory

/--
The memory that some calls lead to from the empty one. A call that is refused changes nothing.
-/
def ofCalls (calls : List Call) : Memory :=
  calls.foldl (fun s call => (s.apply call).2) {}

theorem foldl_apply_induction {P : Memory → Prop}
    (step : ∀ (s : Memory) (call : Call), s.admits call = true → P s → P (s.after call))
    (calls : List Call) (s : Memory) (h : P s)
    : P (calls.foldl (fun s call => (s.apply call).2) s) := by
  induction calls generalizing s with
  | nil => exact h
  | cons call calls ih =>
    apply ih
    dsimp only
    cases hadmits : s.admits call with
    | true =>
      rw [apply_of_admits s hadmits]
      exact step s call hadmits h
    | false =>
      rw [apply_of_not_admits s hadmits]
      exact h

theorem ofCalls_induction {P : Memory → Prop} (empty : P {})
    (step : ∀ (s : Memory) (call : Call), s.admits call = true → P s → P (s.after call))
    (calls : List Call) : P (ofCalls calls) :=
  foldl_apply_induction step calls {} empty

structure Closed (s : Memory) : Prop where
  directories : ∀ {front place : List Component},
    place ∈ s.directories → front <+: place → front ≠ [] → front ∈ s.directories
  files : ∀ {front place : List Component},
    s.files[place]?.isSome → front <+: place → front ≠ [] → front ≠ place → front ∈ s.directories

theorem closed_empty : Closed {} where
  directories h := by simp at h
  files h := by simp at h

theorem prefix_dropLast {α : Type} {front list : List α} (h : front <+: list) (hne : front ≠ list)
    : front <+: list.dropLast := by
  obtain ⟨rest, rfl⟩ := h
  have : rest ≠ [] := by
    intro hrest
    simp [hrest] at hne
  rw [List.dropLast_append_of_ne_nil this]
  apply List.prefix_append

theorem Closed.after {s : Memory} (h : s.Closed) {call : Call} (hadmits : s.admits call = true)
    : (s.after call).Closed := by
  cases call with
  | createDirAll path =>
    constructor
    . intro front place hplace hfront hne
      simp only [Memory.after, mem_directories_createDirAll] at hplace ⊢
      cases hplace with
      | inl hplace => exact Or.inl (h.directories hplace hfront hne)
      | inr hplace => exact Or.inr ⟨hne, hfront.trans hplace.2⟩
    . intro front place hplace hfront hne hproper
      simp only [Memory.after, mem_directories_createDirAll, files_createDirAll] at hplace ⊢
      exact Or.inl (h.files hplace hfront hne hproper)
  | writeFile path content =>
    constructor
    . exact h.directories
    . intro front place hplace hfront hne hproper
      simp only [Memory.after, getElem?_files_put, directories_put] at hplace ⊢
      split at hplace
      . next heq =>
        have hdrop := prefix_dropLast hfront hproper
        rw [← heq] at hdrop
        cases s.hasParent_iff.mp hadmits with
        | inl hnil =>
          rw [hnil, List.prefix_nil] at hdrop
          contradiction
        | inr hparent => exact h.directories hparent hdrop hne
      . exact h.files hplace hfront hne hproper
  | setExecutable path => exact ⟨h.directories, h.files⟩
  | removeDirAll path =>
    -- What lies on the way to a place that stays cannot be below the removed path either.
    constructor
    . intro front place hplace hfront hne
      simp only [Memory.after, mem_directories_removeDirAll] at hplace ⊢
      refine ⟨h.directories hplace.1 hfront hne, ?_⟩
      intro hpath
      exact hplace.2 (hpath.trans hfront)
    . intro front place hplace hfront hne hproper
      simp only [Memory.after, mem_directories_removeDirAll, getElem?_files_removeDirAll] at hplace ⊢
      split at hplace
      . simp at hplace
      . next houtside =>
        refine ⟨h.files hplace hfront hne hproper, ?_⟩
        intro hpath
        exact houtside (hpath.trans hfront)

theorem closed_ofCalls (calls : List Call) : (ofCalls calls).Closed :=
  ofCalls_induction closed_empty (fun _ _ hadmits h => h.after hadmits) calls

section

variable {s : Memory} (h : s.Closed) {path : Path} (hne : path.isEmpty = false)
  (hmissing : s.holds path = false)
include h hne hmissing

theorem Closed.notMem_directories_of_missing {place : List Component}
    (hplace : path.components <+: place) : place ∉ s.directories := by
  intro hmem
  have hpath : path.components ≠ [] := by simpa [← Path.isEmpty_eq_true_iff] using hne
  have : s.holds path = true := s.holds_iff.mpr (Or.inr (h.directories hmem hplace hpath))
  simp [this] at hmissing

theorem Closed.getElem?_files_of_missing {place : List Component}
    (hplace : path.components <+: place) : s.files[place]? = none := by
  rw [← Option.not_isSome_iff_eq_none]
  intro hfile
  have hpath : path.components ≠ [] := by simpa [← Path.isEmpty_eq_true_iff] using hne
  have : s.holds path = true := by
    apply s.holds_iff.mpr
    by_cases heq : path.components = place
    . rw [heq]
      exact Or.inl hfile
    . exact Or.inr (h.files hfile hplace hpath heq)
  simp [this] at hmissing

end

/-! What this means for paths, however they are spelled. -/

theorem components_ne_nil_of_parent? {path parent : Path} (hparent : path.parent? = some parent)
    (hne : parent.isEmpty = false) : path.components.dropLast ≠ [] := by
  rw [← Path.components_of_parent?_eq_some hparent, ne_eq, ← Path.isEmpty_eq_true_iff, hne]
  simp

/--
Everything lies in a directory, and so nothing lies below a path that does not exist. Only the empty
path, in which relative paths lie, is no directory.
-/
structure ParentClosed (s : Memory) : Prop where
  isDirectory_parent : ∀ {path parent : Path}, s.isDirectory path = true →
    path.parent? = some parent → parent.isEmpty = false → s.isDirectory parent = true
  isDirectory_parent_of_file : ∀ {path parent : Path}, (s.read? path).isSome →
    path.parent? = some parent → parent.isEmpty = false → s.isDirectory parent = true
  nothing_below : ∀ {path below : Path}, path.isEmpty = false → s.holds path = false →
    below.startsWith path = true → s.read? below = none ∧ s.isDirectory below = false

theorem Closed.parentClosed {s : Memory} (h : s.Closed) : s.ParentClosed where
  isDirectory_parent {path parent} hpath hparent hne := by
    have hdrop := components_ne_nil_of_parent? hparent hne
    rw [isDirectory_iff] at hpath ⊢
    rw [Path.components_of_parent?_eq_some hparent]
    exact h.directories hpath (List.dropLast_prefix _) hdrop
  isDirectory_parent_of_file {path parent} hpath hparent hne := by
    have hdrop := components_ne_nil_of_parent? hparent hne
    have hproper : path.components.dropLast ≠ path.components := by
      intro heq
      have hlength := congrArg List.length heq
      have hpos := List.length_pos_iff.mpr hdrop
      rw [List.length_dropLast] at hlength hpos
      omega
    rw [isSome_read?_iff] at hpath
    rw [isDirectory_iff, Path.components_of_parent?_eq_some hparent]
    exact h.files hpath (List.dropLast_prefix _) hdrop hproper
  nothing_below {path below} hne hmissing hbelow := by
    rw [Path.startsWith, List.isPrefixOf_iff_prefix] at hbelow
    constructor
    . rw [read?, h.getElem?_files_of_missing hne hmissing hbelow, Option.map_none]
    . rw [← Bool.not_eq_true, isDirectory_iff]
      exact h.notMem_directories_of_missing hne hmissing hbelow

theorem parentClosed_ofCalls (calls : List Call) : (ofCalls calls).ParentClosed :=
  (closed_ofCalls calls).parentClosed

end Memory
end RunnerKit
