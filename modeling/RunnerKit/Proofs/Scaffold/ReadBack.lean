import RunnerKit.Proofs.Path.Names
import RunnerKit.Proofs.Project.Outcome
import RunnerKit.Proofs.Scaffold.Generation
/-!
This module contains what is read back of a project that was written. Files that are shown
differently may still lie at the same place, and of those the last one stays.
-/

namespace RunnerKit

def ProjectStructure.Apart (project : ProjectStructure) : Prop :=
  project.files.Pairwise fun file other =>
    ¬(project.location file).SamePlace (project.location other)

namespace Scaffold

open Memory

def LastAt (root : Path) (files : List ProjectFile) (place : List Component) (last : ProjectFile)
    : Prop :=
  ∃ before after, files = before ++ last :: after ∧ (root.join last.path).components = place ∧
    ∀ other ∈ after, (root.join other.path).components ≠ place

section

variable {root : Path} {files : List ProjectFile} {file last : ProjectFile} {place : List Component}

theorem exists_lastAt (h : ∃ file ∈ files, (root.join file.path).components = place)
    : ∃ last, LastAt root files place last := by
  induction files with
  | nil => simp at h
  | cons first files ih =>
    -- Whichever file comes first, the ones after it win.
    by_cases hlater : ∃ file ∈ files, (root.join file.path).components = place
    . obtain ⟨last, before, after, hfiles, hlast⟩ := ih hlater
      exact ⟨last, first :: before, after, by rw [hfiles]; rfl, hlast⟩
    . simp only [List.mem_cons, or_and_right, exists_or, exists_eq_left] at h
      refine ⟨first, [], files, rfl, h.resolve_right hlater, ?_⟩
      intro other hother hplace
      exact hlater ⟨other, hother, hplace⟩

theorem fileAt_of_forall_ne (h : ∀ other ∈ files, (root.join other.path).components ≠ place)
    (old? : Option MemoryFile) : fileAt root files place old? = old? := by
  induction files generalizing old? with
  | nil => rfl
  | cons first files ih =>
    simp only [List.mem_cons, forall_eq_or_imp] at h
    rw [fileAt, List.foldl_cons, if_neg h.1]
    exact ih h.2 old?

theorem LastAt.content_fileAt (h : LastAt root files place last) (old? : Option MemoryFile)
    : (fileAt root files place old?).map MemoryFile.content = some last.content := by
  obtain ⟨before, after, rfl, hplace, hafter⟩ := h
  rw [fileAt, List.foldl_append, List.foldl_cons, if_pos hplace, ← fileAt, ← fileAt,
    fileAt_of_forall_ne hafter]
  rfl

variable {s s' : Memory}

theorem Generated.read?_eq {path : Path} (h : Generated root files s s')
    (hlast : LastAt root files path.components last) : s'.read? path = some last.content := by
  rw [read?, h.file_eq, hlast.content_fileAt]

variable {store : Store} {request : ScaffoldRequest} {overwrite : Bool} {xs : List Exchange}

theorem Course.generated {project : ProjectStructure}
    (h : Course store request overwrite xs (.ok project)) (hreplay : Replay false s xs s')
    : Generated project.root project.files s s' := by
  cases h with
  | written hplan hclearing hwriting =>
    obtain ⟨t, ht, hreplay⟩ := hreplay.of_append
    rw [store.root_of_plan hplan, (hwriting.of_replay hreplay).2]
    cases hclearing.of_replay ht with
    | inl h =>
      rw [h.2.2]
      exact generated_afterAll
    | inr h => exact absurd h.1 (by simp)

end

section

variable {project : ProjectStructure} (hplaced : WellPlaced project.files)
include hplaced

theorem apart_iff_nodup_names (hroot : project.root.isEmpty = false)
    : project.Apart ↔ (project.files.map (·.path.names)).Nodup := by
  rw [List.Nodup, List.pairwise_map]
  apply List.Pairwise.iff_of_mem
  intro file other hfile hother
  apply not_congr
  exact Path.samePlace_join_iff hroot (hplaced.relative file hfile) (hplaced.relative other hother)

omit hplaced in
theorem apart_iff_nodup_components (hroot : project.root.isEmpty = true)
    : project.Apart ↔ (project.files.map (·.path.components)).Nodup := by
  simp only [ProjectStructure.Apart, ProjectStructure.location, Path.join_of_isEmpty hroot]
  rw [List.Nodup, List.pairwise_map]
  rfl

theorem apart_of_terse (hterse : ∀ file ∈ project.files, file.path.Terse) : project.Apart := by
  apply hplaced.distinct.imp_of_mem
  intro file other hfile hother hshown hsame
  apply hshown
  rw [(hterse file hfile).eq_of_samePlace_join (hterse other hother) (hplaced.relative file hfile)
    (hplaced.relative other hother) hsame]

end

theorem lastAt_of_apart {project : ProjectStructure} (h : project.Apart) {file : ProjectFile}
    (hfile : file ∈ project.files)
    : LastAt project.root project.files (project.location file).components file := by
  obtain ⟨before, after, hfiles⟩ := List.append_of_mem hfile
  refine ⟨before, after, hfiles, rfl, ?_⟩
  intro other hother hplace
  rw [ProjectStructure.Apart, hfiles, List.pairwise_append, List.pairwise_cons] at h
  exact h.2.1.1 other hother hplace.symm

theorem readBack_of_render {t : Template} {ctx : Context} {root : Path} {project : ProjectStructure}
    (h : t.render ctx root = .ok project)
    : (root.isEmpty = false → (project.Apart ↔ (project.files.map (·.path.names)).Nodup)) ∧
      (root.isEmpty = true → (project.Apart ↔ (project.files.map (·.path.components)).Nodup)) ∧
      ((∀ file ∈ project.files, file.path.Terse) → project.Apart) ∧
      ∀ {σ : Type} (storage : MemoryStorage false σ) (store : Store) (request : ScaffoldRequest)
        (overwrite : Bool) (s : σ),
        let outcome := run storage.filesystem storage.log store request overwrite s
        outcome.1 = .ok project →
          (∀ file ∈ project.files, ∃ last,
            LastAt project.root project.files (project.location file).components last ∧
            (storage.memory outcome.2).read? (project.location file) = some last.content) ∧
          (project.Apart → ∀ file ∈ project.files,
            (storage.memory outcome.2).read? (project.location file) = some file.content) := by
  obtain ⟨_, _, hroot, hvalid⟩ := Template.render_eq_ok_iff.mp h
  have hplaced := ProjectStructure.wellPlaced_of_validate hvalid
  subst hroot
  refine ⟨apart_iff_nodup_names hplaced, apart_iff_nodup_components, apart_of_terse hplaced, ?_⟩
  intro σ storage store request overwrite s outcome hok
  obtain ⟨xs, _, hxs, hcourse⟩ :=
    run_dialogue storage.filesystem storage.log store request overwrite { inner := s }
  have hresult : (run storage.filesystem storage.log store request overwrite s).1 = .ok project :=
    hok
  rw [hresult] at hcourse
  have hgenerated := hcourse.generated (.of_converses storage hxs)
  constructor
  . intro file hfile
    have hplace : ∃ other ∈ project.files,
        (project.root.join other.path).components = (project.location file).components :=
      ⟨file, hfile, rfl⟩
    obtain ⟨last, hlast⟩ := exists_lastAt hplace
    exact ⟨last, hlast, hgenerated.read?_eq hlast⟩
  . intro hapart file hfile
    exact hgenerated.read?_eq (lastAt_of_apart hapart hfile)

def twinTemplate : Template where
  id := "t"
  description := ""
  pathStyle := .default
  files := [{ path := .ofString "%\x7bDIR\x7d/a", content := "1" },
    { path := .ofString "src/a", content := "2" }]

def twinStore : Store := ⟨Std.TreeMap.empty.insert "t" twinTemplate⟩

def twinRequest : ScaffoldRequest where
  template := "t"
  context := (⟨∅⟩ : Context).bind "DIR" "src/"
  root := .ofString "out"

def firstTwin : ProjectFile := ⟨.ofString "src//a", "1", false⟩

def secondTwin : ProjectFile := ⟨.ofString "src/a", "2", false⟩

def twinProject : ProjectStructure := ⟨.ofString "out", [firstTwin, secondTwin]⟩

def twinRun : Except Error ProjectStructure × Memory :=
  run Memory.storage.filesystem Memory.storage.log twinStore twinRequest false {}

theorem render_twinTemplate
    : twinTemplate.render twinRequest.context twinRequest.root = .ok twinProject := by decide +kernel

theorem twinRun_eq_ok : twinRun.1 = .ok twinProject := by decide +kernel

theorem twins_readBack :
    twinTemplate.render twinRequest.context twinRequest.root = .ok twinProject ∧
    twinRun.1 = .ok twinProject ∧
    ∃ last, LastAt twinProject.root twinProject.files (twinProject.location firstTwin).components last ∧
      twinRun.2.read? (twinProject.location firstTwin) = some last.content := by
  obtain ⟨_, _, _, hread⟩ := readBack_of_render render_twinTemplate
  refine ⟨render_twinTemplate, twinRun_eq_ok, ?_⟩
  have htwins := hread Memory.storage twinStore twinRequest false {} twinRun_eq_ok
  exact htwins.1 firstTwin List.mem_cons_self

theorem twins_at_one_place :
    twinTemplate.render twinRequest.context twinRequest.root = .ok twinProject ∧
    (twinProject.location firstTwin).SamePlace (twinProject.location secondTwin) ∧
    twinRun.1 = .ok twinProject ∧ firstTwin.content = "1" ∧
    twinRun.2.read? (twinProject.location firstTwin) = some "2" := by
  refine ⟨render_twinTemplate, ?_, twinRun_eq_ok, rfl, ?_⟩
  . decide +kernel
  . decide +kernel

end Scaffold
end RunnerKit
