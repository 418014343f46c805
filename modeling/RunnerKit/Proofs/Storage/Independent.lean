import RunnerKit.Proofs.Storage.Confined
import RunnerKit.Proofs.Storage.Sequence
/-!
This module contains the fact that calls which concern unrelated roots may change places. Every call
acts on each place by itself, and there is no place on which both of two such calls act, apart from
directories on the way to both roots, which either call only makes.
-/

namespace RunnerKit

def Path.Unrelated (p q : Path) : Prop :=
  ¬p.components <+: q.components ∧ ¬q.components <+: p.components

theorem Path.Unrelated.symm {p q : Path} (h : p.Unrelated q) : q.Unrelated p := ⟨h.2, h.1⟩

theorem Path.Unrelated.not_prefix {p q : Path} (h : p.Unrelated q) {place : List Component}
    (hplace : p.components <+: place) : ¬q.components <+: place := by
  intro hother
  cases List.prefix_or_prefix_of_prefix hplace hother with
  | inl hprefix => exact h.1 hprefix
  | inr hprefix => exact h.2 hprefix

namespace Memory

variable {place : List Component} {s s' s'' : Memory}

structure AgreeAt (place : List Component) (s s' : Memory) : Prop where
  file_eq : s.files[place]? = s'.files[place]?
  directory_iff : place ∈ s.directories ↔ place ∈ s'.directories
  executable_iff : place ∈ s.executables ↔ place ∈ s'.executables

def Same (s s' : Memory) : Prop := ∀ place, AgreeAt place s s'

namespace AgreeAt

theorem refl (place : List Component) (s : Memory) : AgreeAt place s s := ⟨rfl, Iff.rfl, Iff.rfl⟩

theorem symm (h : AgreeAt place s s') : AgreeAt place s' s :=
  ⟨h.file_eq.symm, h.directory_iff.symm, h.executable_iff.symm⟩

theorem trans (h : AgreeAt place s s') (h' : AgreeAt place s' s'') : AgreeAt place s s'' :=
  ⟨h.file_eq.trans h'.file_eq, h.directory_iff.trans h'.directory_iff,
    h.executable_iff.trans h'.executable_iff⟩

theorem holds_eq {path : Path} (h : AgreeAt path.components s s') : s.holds path = s'.holds path := by
  rw [Bool.eq_iff_iff, holds_iff, holds_iff, h.file_eq, h.directory_iff]

theorem after (h : AgreeAt place s s') (call : Call)
    : AgreeAt place (s.after call) (s'.after call) := by
  cases call with
  | createDirAll path =>
    refine ⟨h.file_eq, ?_, h.executable_iff⟩
    simp only [Memory.after, mem_directories_createDirAll, h.directory_iff]
  | writeFile path content =>
    refine ⟨?_, h.directory_iff, h.executable_iff⟩
    simp only [Memory.after, getElem?_files_put, h.file_eq]
  | setExecutable path =>
    refine ⟨h.file_eq, h.directory_iff, ?_⟩
    simp only [Memory.after, mem_executables_setExecutable, h.executable_iff]
  | removeDirAll path =>
    constructor
    . simp only [Memory.after, getElem?_files_removeDirAll, h.file_eq]
    . simp only [Memory.after, mem_directories_removeDirAll, h.directory_iff]
    . simp only [Memory.after, mem_executables_removeDirAll, h.executable_iff]

theorem afterAll (h : AgreeAt place s s') (calls : List Call)
    : AgreeAt place (s.afterAll calls) (s'.afterAll calls) := by
  induction calls generalizing s s' with
  | nil => exact h
  | cons call calls ih => exact ih (h.after call)

end AgreeAt

section

variable {root root' : Path} {call call' : Call}

theorem agreeAt_after (hroots : root.Unrelated root') (h : call.Concerns root)
    (hplace : root'.components <+: place) (s : Memory) : AgreeAt place (s.after call) s := by
  have houtside := hroots.symm.not_prefix hplace
  have hsame := SameOutside.after s h
  refine ⟨hsame.files houtside, ⟨?_, hsame.directories houtside⟩, hsame.executables houtside⟩
  intro hmem
  cases hsame.ancestors houtside hmem with
  | inl hmem => exact hmem
  | inr hancestor => exact absurd (hplace.trans hancestor.2.1) hroots.2

theorem agreeAt_afterAll (hroots : root.Unrelated root') {calls : List Call}
    (h : ∀ call ∈ calls, call.Concerns root) (hplace : root'.components <+: place) (s : Memory)
    : AgreeAt place (s.afterAll calls) s := by
  induction calls generalizing s with
  | nil => exact .refl place s
  | cons call calls ih =>
    rw [List.forall_mem_cons] at h
    exact (ih h.2 _).trans (agreeAt_after hroots h.1 hplace s)

theorem mem_directories_after_of_outside (h : call.Concerns root)
    (hplace : ¬root.components <+: place)
    : place ∈ (s.after call).directories
        ↔
      place ∈ s.directories
        ∨ (place ≠ [] ∧ ∃ path, call = .createDirAll path ∧ place <+: path.components) := by
  cases call with
  | removeDirAll path =>
    have hpath : ¬path.components <+: place := fun hfront => hplace (List.IsPrefix.trans h hfront)
    simp [Memory.after, hpath]
  | _ => exact mem_directories_after (by simp)

theorem after_comm (hroots : root.Unrelated root') (h : call.Concerns root)
    (h' : call'.Concerns root') (s : Memory)
    : Same ((s.after call).after call') ((s.after call').after call) := by
  intro place
  by_cases hplace : root.components <+: place
  . -- Here the second call does nothing, whether it comes before the first or after it.
    have hlast := agreeAt_after hroots.symm h' hplace (s.after call)
    have hfirst := (agreeAt_after hroots.symm h' hplace s).after call
    exact hlast.trans hfirst.symm
  . by_cases hplace' : root'.components <+: place
    . have hlast := agreeAt_after hroots h hplace' (s.after call')
      have hfirst := (agreeAt_after hroots h hplace' s).after call'
      exact hfirst.trans hlast.symm
    . have hsame (s : Memory) := SameOutside.after s h
      have hsame' (s : Memory) := SameOutside.after s h'
      constructor
      . rw [(hsame' _).files hplace', (hsame _).files hplace, (hsame _).files hplace,
          (hsame' _).files hplace']
      . simp only [mem_directories_after_of_outside h hplace,
          mem_directories_after_of_outside h' hplace']
        exact or_right_comm
      . rw [(hsame' _).executables hplace', (hsame _).executables hplace,
          (hsame _).executables hplace, (hsame' _).executables hplace']

theorem after_afterAll_comm (hroots : root.Unrelated root') (h : call.Concerns root)
    {calls : List Call} (hcalls : ∀ call ∈ calls, call.Concerns root') (s : Memory)
    : Same ((s.after call).afterAll calls) ((s.afterAll calls).after call) := by
  induction calls generalizing s with
  | nil => exact fun place => .refl place _
  | cons next calls ih =>
    rw [List.forall_mem_cons] at hcalls
    intro place
    exact ((after_comm hroots h hcalls.1 s place).afterAll calls).trans (ih hcalls.2 _ place)

theorem afterAll_comm (hroots : root.Unrelated root') {calls calls' : List Call}
    (h : ∀ call ∈ calls, call.Concerns root) (h' : ∀ call ∈ calls', call.Concerns root')
    (s : Memory)
    : Same ((s.afterAll calls).afterAll calls') ((s.afterAll calls').afterAll calls) := by
  induction calls generalizing s with
  | nil => exact fun place => .refl place _
  | cons call calls ih =>
    rw [List.forall_mem_cons] at h
    intro place
    have hfirst := (after_afterAll_comm hroots h.1 h' s place).afterAll calls
    exact (ih h.2 (s.after call) place).trans hfirst

end

end Memory
end RunnerKit
