import Mathlib.Data.List.Induction
import RunnerKit.Proofs.Path.Components
/-!
This module contains walks through components, in which two dots lead up, and what tells whether a
walk stays at or below the position that it began at.
-/

namespace RunnerKit

def Component.isNormal : Component → Bool
  | .normal _ => true
  | _ => false

/--
A position that a walk has got to: from where it began, or from the root of all files if `rooted`, so
many directories up and then down through some names, of which the last one comes first.
-/
structure Position where
  rooted : Bool := false
  ups : Nat := 0
  names : List Name := []
  deriving DecidableEq, Repr

namespace Position

def enter (p : Position) : Component → Position
  | .root => { rooted := true }
  | .current => p
  | .parent =>
    match p.names with
    | [] => if p.rooted then p else { p with ups := p.ups + 1 }
    | _ :: names => { p with names }
  | .normal name => { p with names := name :: p.names }

def walk (p : Position) (components : List Component) : Position := components.foldl enter p

def Within (p q : Position) : Prop := p.rooted = q.rooted ∧ p.ups = q.ups ∧ q.names <:+ p.names

def IsTop (p : Position) : Prop := p.rooted = true ∧ p.names = []

end Position

/--
Whether components never lead above where they begin: none of their beginnings has more double dots
than names.
-/
def NeverClimbs (components : List Component) : Prop :=
  ∀ front, front <+: components → front.count .parent ≤ front.countP Component.isNormal

theorem neverClimbs_nil : NeverClimbs [] := by
  intro front hfront
  rw [List.prefix_nil.mp hfront]
  apply Nat.le_refl

theorem neverClimbs_concat_iff {components : List Component} {c : Component}
    : NeverClimbs (components ++ [c]) ↔
      NeverClimbs components ∧
        (components ++ [c]).count .parent ≤ (components ++ [c]).countP Component.isNormal := by
  simp only [NeverClimbs, List.prefix_concat_iff, or_imp, forall_and, forall_eq]
  exact and_comm

namespace Position

variable (p : Position) {components : List Component}

theorem walk_concat (components : List Component) (c : Component)
    : p.walk (components ++ [c]) = (p.walk components).enter c := by
  simp [walk]

theorem walk_append (components others : List Component)
    : p.walk (components ++ others) = (p.walk components).walk others := by
  simp [walk]

theorem exists_walk_eq (hroot : .root ∉ components) (h : NeverClimbs components)
    : ∃ names, p.walk components = { p with names := names ++ p.names } ∧
        names.length + components.count .parent = components.countP Component.isNormal := by
  -- The names that are added are those that no double dots took back.
  induction components using List.reverseRecOn with
  | nil => exact ⟨[], rfl, rfl⟩
  | append_singleton components c ih =>
    simp only [List.mem_append, List.mem_singleton, not_or] at hroot
    obtain ⟨hclimbs, hcount⟩ := neverClimbs_concat_iff.mp h
    obtain ⟨names, hwalk, hlength⟩ := ih hroot.1 hclimbs
    rw [walk_concat, hwalk]
    simp only [List.count_append, List.countP_append] at hcount ⊢
    cases c with
    | root => exact absurd rfl hroot.2
    | current => exact ⟨names, rfl, by simpa [Component.isNormal] using hlength⟩
    | normal name =>
      refine ⟨name :: names, rfl, ?_⟩
      simp [Component.isNormal, ← hlength]
      omega
    | parent =>
      cases names with
      | nil =>
        simp [Component.isNormal] at hcount hlength
        omega
      | cons name names =>
        refine ⟨names, rfl, ?_⟩
        simp [Component.isNormal, ← hlength]
        omega

theorem within_walk (hroot : .root ∉ components) (h : NeverClimbs components)
    : (p.walk components).Within p := by
  obtain ⟨names, hwalk, -⟩ := p.exists_walk_eq hroot h
  rw [hwalk]
  exact ⟨rfl, rfl, List.suffix_append names p.names⟩

theorem not_within_enter_parent (htop : ¬p.IsTop) : ¬(p.enter .parent).Within p := by
  obtain ⟨rooted, ups, names⟩ := p
  rintro ⟨-, hups, hnames⟩
  cases names with
  | nil =>
    cases rooted with
    | true => exact htop ⟨rfl, rfl⟩
    | false => simp [enter] at hups
  | cons name names =>
    have : names.length + 1 ≤ names.length := hnames.length_le
    omega

theorem exists_walk_eq_of_rooted (hrooted : p.rooted = true) (hroot : .root ∉ components)
    : ∃ names, p.walk components = { p with names } := by
  induction components using List.reverseRecOn with
  | nil => exact ⟨p.names, rfl⟩
  | append_singleton components c ih =>
    simp only [List.mem_append, List.mem_singleton, not_or] at hroot
    obtain ⟨names, hwalk⟩ := ih hroot.1
    rw [walk_concat, hwalk]
    cases c with
    | root => exact absurd rfl hroot.2
    | current => exact ⟨names, rfl⟩
    | normal name => exact ⟨name :: names, rfl⟩
    | parent =>
      cases names with
      | nil => exact ⟨[], by simp [enter, hrooted]⟩
      | cons name names => exact ⟨names, rfl⟩

theorem within_walk_of_isTop (htop : p.IsTop) (hroot : .root ∉ components)
    : (p.walk components).Within p := by
  obtain ⟨names, hwalk⟩ := p.exists_walk_eq_of_rooted htop.1 hroot
  rw [hwalk]
  refine ⟨rfl, rfl, ?_⟩
  rw [htop.2]
  apply List.nil_suffix

theorem neverClimbs_of_within (htop : ¬p.IsTop) (hroot : .root ∉ components)
    (h : ∀ front, front <+: components → (p.walk front).Within p) : NeverClimbs components := by
  induction components using List.reverseRecOn with
  | nil => exact neverClimbs_nil
  | append_singleton components c ih =>
    simp only [List.mem_append, List.mem_singleton, not_or] at hroot
    have hclimbs : NeverClimbs components := by
      apply ih hroot.1
      intro front hfront
      exact h front (hfront.trans (List.prefix_append components [c]))
    refine neverClimbs_concat_iff.mpr ⟨hclimbs, ?_⟩
    obtain ⟨names, hwalk, hlength⟩ := p.exists_walk_eq hroot.1 hclimbs
    simp only [List.count_append, List.countP_append]
    cases c with
    | parent =>
      -- Without a name to take back, the last step would lead out of where the walk began.
      cases names with
      | nil =>
        have hlast := h _ List.prefix_rfl
        rw [walk_concat, hwalk] at hlast
        exact absurd hlast (p.not_within_enter_parent htop)
      | cons name names =>
        simp [Component.isNormal] at hlength ⊢
        omega
    | _ =>
      simp [Component.isNormal]
      omega

theorem forall_within_iff (hroot : .root ∉ components)
    : (∀ front, front <+: components → (p.walk front).Within p) ↔
      p.IsTop ∨ NeverClimbs components := by
  constructor
  . intro h
    by_cases htop : p.IsTop
    . exact Or.inl htop
    . exact Or.inr (p.neverClimbs_of_within htop hroot h)
  . intro h front hfront
    have hfrontroot : .root ∉ front := fun hmem => hroot (hfront.subset hmem)
    cases h with
    | inl htop => exact p.within_walk_of_isTop htop hfrontroot
    | inr h =>
      apply p.within_walk hfrontroot
      intro shorter hshorter
      exact h shorter (hshorter.trans hfront)

end Position

namespace Path

def resolve (p : Path) : Position := Position.walk {} p.components

theorem components_eq_or_of_relative {p : Path} (h : p.isAbsolute = false)
    : p.components = componentsOfNames (splitSlashes p.bytes) ∨
      p.components = .current :: componentsOfNames (splitSlashes p.bytes) := by
  rw [components_eq]
  cases p.shape with
  | empty => exact Or.inl rfl
  | root => simp [isAbsolute] at h
  | dot => exact Or.inr rfl
  | current body =>
    right
    rw [splitSlashes_dot_slash]
    simp [leading]
  | plain _ hnames hname =>
    left
    rw [hnames, leading_of_not_isIgnored hname]
    rfl

theorem root_notMem_componentsOfNames (names : List Name)
    : Component.root ∉ componentsOfNames names := by
  simp only [componentsOfNames, List.mem_map, not_exists, not_and]
  intro name _ h
  unfold componentOfName at h
  split at h <;> simp at h

theorem root_notMem_components {p : Path} (h : p.isAbsolute = false) : .root ∉ p.components := by
  cases components_eq_or_of_relative h with
  | inl hcomponents =>
    rw [hcomponents]
    apply root_notMem_componentsOfNames
  | inr hcomponents =>
    rw [hcomponents]
    simp [root_notMem_componentsOfNames]

theorem resolve_join (root : Path) {p : Path} (h : p.isAbsolute = false)
    : (root.join p).resolve = root.resolve.walk p.components := by
  cases hroot : root.isEmpty with
  | true =>
    rw [join_of_isEmpty hroot, resolve, resolve, isEmpty_eq_true_iff.mp hroot]
    rfl
  | false =>
    rw [resolve, components_join hroot h, Position.walk_append, ← resolve]
    cases components_eq_or_of_relative h with
    | inl hcomponents => rw [hcomponents]
    | inr hcomponents =>
      rw [hcomponents]
      rfl

end Path
end RunnerKit
