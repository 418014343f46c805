import RunnerKit.Project.Scaffold
/-!
This module contains what is known of a project once it has been rendered.
-/

namespace RunnerKit

theorem liftViolation_eq_ok_iff {α : Type} {result : Except Violation α} {a : α}
    : liftViolation result = .ok a ↔ result = .ok a := by
  cases result <;> simp [liftViolation]

theorem bind_eq_ok_iff {ε α β : Type} {x : Except ε α} {next : α → Except ε β} {b : β}
    : (x >>= next) = .ok b ↔ ∃ a, x = .ok a ∧ next a = .ok b := by
  cases x with
  | error e => simp [bind, Except.bind]
  | ok a => simp [bind, Except.bind]

theorem ProjectStructure.foldl_add (s : ProjectStructure) (files : List ProjectFile)
    : files.foldl add s = { s with files := s.files ++ files } := by
  induction files generalizing s with
  | nil => rw [List.foldl_nil, List.append_nil]
  | cons file files ih => rw [List.foldl_cons, ih, add, List.append_assoc, List.singleton_append]

theorem Template.render_eq_ok_iff {t : Template} {ctx : Context} {root : Path}
    {project : ProjectStructure} : t.render ctx root = .ok project ↔
      t.validate = .ok () ∧ renderFiles ctx t.files = .ok project.files ∧ project.root = root ∧
        project.validate = .ok () := by
  unfold Template.render
  simp only [bind_eq_ok_iff, liftViolation_eq_ok_iff, ProjectStructure.foldl_add, List.nil_append]
  constructor
  . rintro ⟨_, ht, files, hfiles, _, hproject, heq⟩
    cases heq
    exact ⟨ht, hfiles, rfl, hproject⟩
  . rintro ⟨ht, hfiles, hroot, hproject⟩
    subst hroot
    exact ⟨(), ht, project.files, hfiles, (), hproject, rfl⟩

namespace ProjectStructure

theorem isAbsolute_of_checkFiles {seen : List String} {files : List ProjectFile}
    (h : checkFiles seen files = .ok ()) : ∀ file ∈ files, file.path.isAbsolute = false := by
  induction files generalizing seen with
  | nil => simp
  | cons file files ih =>
    simp only [checkFiles] at h
    split at h
    . simp at h
    . split at h
      . simp at h
      . next habsolute =>
        intro other hother
        cases hother with
        | head => simpa using habsolute
        | tail _ hother => exact ih h other hother

theorem isAbsolute_of_validate {project : ProjectStructure} (h : project.validate = .ok ())
    : ∀ file ∈ project.files, file.path.isAbsolute = false := by
  unfold validate at h
  split at h
  . simp at h
  . exact isAbsolute_of_checkFiles h

end ProjectStructure

variable {store : Store} {request : ScaffoldRequest} {project : ProjectStructure}
  (h : store.plan request = .ok project)
include h

theorem Store.render_of_plan
    : ∃ t, store.get request.template = .ok t ∧ t.render request.context request.root = .ok project :=
  bind_eq_ok_iff.mp h

theorem Store.root_of_plan : project.root = request.root := by
  obtain ⟨_, _, hrender⟩ := store.render_of_plan h
  exact (Template.render_eq_ok_iff.mp hrender).2.2.1

theorem Store.isAbsolute_of_plan : ∀ file ∈ project.files, file.path.isAbsolute = false := by
  obtain ⟨_, _, hrender⟩ := store.render_of_plan h
  exact ProjectStructure.isAbsolute_of_validate (Template.render_eq_ok_iff.mp hrender).2.2.2

end RunnerKit
