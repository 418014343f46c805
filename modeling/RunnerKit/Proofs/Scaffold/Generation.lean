import RunnerKit.Proofs.Scaffold.Course
import RunnerKit.Proofs.Storage.Sequence
/-!
This module contains what the generation of a project leaves in a memory that fails no call of its
own accord.
-/

namespace RunnerKit
namespace Scaffold

open Memory

variable {root : Path} {file : ProjectFile} {files : List ProjectFile} {path : Path}

theorem createDirAll_mem_fileSequence_iff : .createDirAll path ∈ fileSequence root file ↔
    (root.join file.path).parent? = some path := by
  simp [fileSequence]

theorem writeFile_mem_fileSequence_iff {content : String}
    : .writeFile path content ∈ fileSequence root file ↔
      root.join file.path = path ∧ file.content = content := by
  simp [fileSequence, @eq_comm Path path, @eq_comm String content]

theorem setExecutable_mem_fileSequence_iff : .setExecutable path ∈ fileSequence root file ↔
    file.executable = true ∧ root.join file.path = path := by
  simp only [fileSequence, List.mem_append, Option.mem_toList]
  cases file.executable <;> simp [@eq_comm Path path]

theorem removeDirAll_notMem_fileSequence : .removeDirAll path ∉ fileSequence root file := by
  simp [fileSequence]

theorem createDirAll_mem_writeSequence_iff : .createDirAll path ∈ writeSequence root files ↔
    path = root ∨ ∃ file ∈ files, (root.join file.path).parent? = some path := by
  simp [writeSequence, createDirAll_mem_fileSequence_iff]

theorem writeFile_mem_writeSequence_iff {content : String}
    : .writeFile path content ∈ writeSequence root files ↔
      ∃ file ∈ files, root.join file.path = path ∧ file.content = content := by
  simp [writeSequence, writeFile_mem_fileSequence_iff]

theorem setExecutable_mem_writeSequence_iff : .setExecutable path ∈ writeSequence root files ↔
    ∃ file ∈ files, file.executable = true ∧ root.join file.path = path := by
  simp [writeSequence, setExecutable_mem_fileSequence_iff]

theorem removeDirAll_notMem_writeSequence : .removeDirAll path ∉ writeSequence root files := by
  simp [writeSequence, removeDirAll_notMem_fileSequence]

/--
What a place holds once files were written below a root in their order, if it held `old?` before. Of
two files at the same place the later one stays.
-/
def fileAt (root : Path) (files : List ProjectFile) (place : List Component)
    (old? : Option MemoryFile) : Option MemoryFile :=
  files.foldl
    (fun old? file =>
      let path := root.join file.path
      if path.components = place then some (rewritten old? path file.content) else old?)
    old?

theorem foldl_written_fileSequence (place : List Component) (old? : Option MemoryFile)
    : (fileSequence root file).foldl (written place) old? =
      if (root.join file.path).components = place
      then some (rewritten old? (root.join file.path) file.content)
      else old? := by
  simp only [fileSequence]
  cases (root.join file.path).parent? <;> cases file.executable <;> simp [written]

theorem foldl_written_writeSequence (place : List Component) (old? : Option MemoryFile)
    : (writeSequence root files).foldl (written place) old? = fileAt root files place old? := by
  simp only [writeSequence, List.foldl_cons, List.foldl_flatMap, foldl_written_fileSequence]
  rfl

theorem admitsAll_fileSequence (s : Memory) : s.AdmitsAll (fileSequence root file) := by
  have hmark (s : Memory)
      : s.AdmitsAll (if file.executable then [.setExecutable (root.join file.path)] else []) := by
    split <;> simp [AdmitsAll, admits]
  simp only [fileSequence, List.append_assoc]
  cases hparent : (root.join file.path).parent? with
  | none =>
    -- Without a parent the file lies at the top, where no directory is asked for.
    have hdirectory : s.hasParent (root.join file.path) = true := by
      rw [hasParent_iff]
      exact Or.inl (Path.dropLast_components_of_parent?_eq_none hparent)
    exact ⟨hdirectory, hmark _⟩
  | some parent =>
    have hdirectory : (s.createDirAll parent).hasParent (root.join file.path) = true := by
      rw [hasParent_iff, mem_directories_createDirAll, Path.components_of_parent?_eq_some hparent]
      by_cases hempty : (root.join file.path).components.dropLast = []
      . exact Or.inl hempty
      . exact Or.inr (Or.inr ⟨hempty, List.prefix_rfl⟩)
    exact ⟨rfl, hdirectory, hmark _⟩

theorem admitsAll_flatMap_fileSequence (s : Memory)
    : s.AdmitsAll (files.flatMap (fileSequence root)) := by
  induction files generalizing s with
  | nil => simp [AdmitsAll]
  | cons file files ih =>
    rw [List.flatMap_cons, admitsAll_append]
    exact ⟨admitsAll_fileSequence s, ih _⟩

theorem admitsAll_writeSequence (s : Memory) : s.AdmitsAll (writeSequence root files) :=
  ⟨rfl, admitsAll_flatMap_fileSequence _⟩

def Vacates (root : Path) (s : Memory) (place : List Component) : Prop :=
  s.holds root = true ∧ root.components <+: place

instance (root : Path) (s : Memory) (place : List Component) : Decidable (Vacates root s place) :=
  inferInstanceAs (Decidable (_ ∧ _))

def vacated (root : Path) (s : Memory) : Memory :=
  if s.holds root then s.removeDirAll root else s

variable {s s' : Memory} {place : List Component}

theorem getElem?_files_vacated : (vacated root s).files[place]? =
    if Vacates root s place then none else s.files[place]? := by
  unfold vacated
  split
  . next h => simp [Vacates, h]
  . next h => simp [Vacates, h]

theorem mem_directories_vacated : place ∈ (vacated root s).directories ↔
    place ∈ s.directories ∧ ¬Vacates root s place := by
  unfold vacated
  split
  . next h => simp [Vacates, h]
  . next h => simp [Vacates, h]

theorem mem_executables_vacated : place ∈ (vacated root s).executables ↔
    place ∈ s.executables ∧ ¬Vacates root s place := by
  unfold vacated
  split
  . next h => simp [Vacates, h]
  . next h => simp [Vacates, h]

structure Generated (root : Path) (files : List ProjectFile) (s s' : Memory) : Prop where
  file_eq : ∀ place : List Component,
    s'.files[place]? =
      fileAt root files place (if Vacates root s place then none else s.files[place]?)
  directory_iff : ∀ place : List Component,
    place ∈ s'.directories
      ↔
    (place ∈ s.directories ∧ ¬Vacates root s place)
      ∨ (place ≠ [] ∧ (place <+: root.components
          ∨ ∃ file ∈ files, ∃ parent,
              (root.join file.path).parent? = some parent ∧ place <+: parent.components))
  executable_iff : ∀ place : List Component,
    place ∈ s'.executables
      ↔
    (place ∈ s.executables ∧ ¬Vacates root s place)
      ∨ ∃ file ∈ files, file.executable = true ∧ (root.join file.path).components = place

theorem generated_afterAll
    : Generated root files s ((vacated root s).afterAll (writeSequence root files)) where
  file_eq place := by
    rw [getElem?_files_afterAll fun _ => removeDirAll_notMem_writeSequence,
      foldl_written_writeSequence, getElem?_files_vacated]
  directory_iff place := by
    rw [mem_directories_afterAll fun _ => removeDirAll_notMem_writeSequence, mem_directories_vacated]
    simp only [createDirAll_mem_writeSequence_iff, or_and_right, exists_or, exists_eq_left]
    grind
  executable_iff place := by
    rw [mem_executables_afterAll fun _ => removeDirAll_notMem_writeSequence, mem_executables_vacated]
    simp only [setExecutable_mem_writeSequence_iff]
    grind

variable {overwrite : Bool} {xs : List Exchange}

theorem Clearing.of_replay {result : Except Error Unit} (h : Clearing root overwrite xs result)
    (hreplay : Replay false s xs s')
    : (result = .ok () ∧ (s.holds root = false ∨ overwrite = true) ∧ s' = vacated root s) ∨
      (result = .error (.failure (.projectExists root)) ∧
        ¬(s.holds root = false ∨ overwrite = true) ∧ s' = s) := by
  cases h with
  | free =>
    cases hreplay with
    | asked hanswer hreplay =>
      rw [hreplay.eq_of_nil]
      simp [vacated, ← hanswer]
  | removed hoverwrite =>
    cases hreplay with
    | asked hanswer hreplay =>
      cases hreplay with
      | done _ hreplay =>
        rw [hreplay.eq_of_nil]
        simp [vacated, ← hanswer, hoverwrite, Memory.after]
  | occupied hoverwrite =>
    cases hreplay with
    | asked hanswer hreplay =>
      rw [hreplay.eq_of_nil]
      simp [← hanswer, hoverwrite]
  | unremoved =>
    cases hreplay with
    | asked _ hreplay =>
      cases hreplay with
      | failed hrefused => simp [admits] at hrefused

theorem Writing.of_replay {result : Except Error Unit} (h : Writing root files xs result)
    (hreplay : Replay false s xs s')
    : result = .ok () ∧ s' = s.afterAll (writeSequence root files) := by
  cases h with
  | written => exact ⟨rfl, hreplay.eq_afterAll⟩
  | rolledBack hcalls =>
    -- No call of the sequence is refused, so there is nothing to roll back.
    have hadmits : s.AdmitsAll (writeSequence root files) := admitsAll_writeSequence s
    rw [hcalls] at hadmits
    exact absurd hadmits hreplay.not_admitsAll

theorem generated_of_run {σ : Type} (storage : MemoryStorage false σ) (store : Store)
    (request : ScaffoldRequest) (overwrite : Bool) (s : σ)
    : let outcome := run storage.filesystem storage.log store request overwrite s
      (∀ project, outcome.1 = .ok project ↔
        store.plan request = .ok project ∧
        ((storage.memory s).holds request.root = false ∨ overwrite = true)) ∧
      (∀ project, outcome.1 = .ok project →
        Generated request.root project.files (storage.memory s) (storage.memory outcome.2)) ∧
      (∀ e, outcome.1 = .error e → storage.memory outcome.2 = storage.memory s) := by
  intro outcome
  obtain ⟨xs, _, hxs, hcourse⟩ :=
    run_dialogue storage.filesystem storage.log store request overwrite { inner := s }
  have hreplay : Replay false (storage.memory s) xs (storage.memory outcome.2) :=
    .of_converses storage hxs
  have hresult : outcome.1 = (run storage.filesystem storage.log store request overwrite s).1 := rfl
  rw [← hresult] at hcourse
  generalize outcome.1 = result at hcourse ⊢
  cases hcourse with
  | unplanned hplan => simp [hplan, hreplay.eq_of_nil]
  | blocked hplan hclearing =>
    cases hclearing.of_replay hreplay with
    | inl h => exact absurd h.1 (by simp)
    | inr h =>
      refine ⟨?_, ?_, ?_⟩
      . intro project
        constructor
        . intro hok
          cases hok
        . intro hproject
          exact absurd hproject.2 h.2.1
      . intro project hok
        cases hok
      . intro _ _
        exact h.2.2
  | written hplan hclearing hwriting =>
    obtain ⟨t, ht, hreplay⟩ := hreplay.of_append
    cases hclearing.of_replay ht with
    | inl h =>
      have hfinal := (hwriting.of_replay hreplay).2
      rw [h.2.2] at hfinal
      refine ⟨?_, ?_, ?_⟩
      . intro project
        rw [hplan]
        constructor
        . intro hok
          exact ⟨hok, h.2.1⟩
        . intro hproject
          exact hproject.1
      . intro project hok
        cases hok
        rw [hfinal]
        exact generated_afterAll
      . intro e herror
        cases herror
    | inr h => exact absurd h.1 (by simp)
  | rolledBack _ _ hwriting =>
    obtain ⟨t, _, hreplay⟩ := hreplay.of_append
    exact absurd (hwriting.of_replay hreplay).1 (by simp)

end Scaffold
end RunnerKit
