import RunnerKit.Proofs.Path.Walk
import RunnerKit.Proofs.Scaffold.Generation
import RunnerKit.Proofs.Storage.Confined
/-!
This module contains where the files of a project lie. Compared by components all of them are below
the root, but double dots may still lead out of it.
-/

namespace RunnerKit

/--
What keeps a file at a root. Its path goes on from where the root leads to, and the way there stays
at or below the root exactly if the path never climbs. Only above the top there is nowhere to go.
-/
structure ProjectFile.Contained (root : Path) (file : ProjectFile) : Prop where
  relative : file.path.isAbsolute = false
  below : root.components <+: (root.join file.path).components
  resolve_eq : (root.join file.path).resolve = root.resolve.walk file.path.components
  within_iff :
    (∀ front, front <+: file.path.components → (root.resolve.walk front).Within root.resolve)
      ↔
    root.resolve.IsTop ∨ NeverClimbs file.path.components

theorem ProjectFile.contained_of_relative (root : Path) {file : ProjectFile}
    (h : file.path.isAbsolute = false) : file.Contained root where
  relative := h
  below := Path.components_prefix_join root h
  resolve_eq := Path.resolve_join root h
  within_iff := root.resolve.forall_within_iff (Path.root_notMem_components h)

namespace Scaffold

theorem contained_of_render {t : Template} {ctx : Context} {root : Path} {project : ProjectStructure}
    (h : t.render ctx root = .ok project)
    : (∀ file ∈ project.files, file.Contained root) ∧
      (∀ file ∈ project.files, ∀ s : Memory,
        (s.removeDirAll root).read? (root.join file.path) = none ∧
        (s.removeDirAll root).isExecutable (root.join file.path) = false) ∧
      ∀ {σ : Type} (fs : Filesystem (StateM σ)) (log : Event → StateM σ Unit) (store : Store)
        (request : ScaffoldRequest) (overwrite : Bool) (s : σ),
        store.plan request = .ok project →
        let exchanges := (run (Transcribed.filesystem fs) (Transcribed.log log) store request overwrite
          { inner := s }).2.exchanges
        (∀ path content answer, .call (.writeFile path content) answer ∈ exchanges →
          ∃ file ∈ project.files, root.join file.path = path ∧ file.content = content) ∧
        (∀ path answer, .call (.setExecutable path) answer ∈ exchanges →
          ∃ file ∈ project.files, file.executable = true ∧ root.join file.path = path) := by
  obtain ⟨_, _, hroot, hvalid⟩ := Template.render_eq_ok_iff.mp h
  subst hroot
  have hcontained : ∀ file ∈ project.files, file.Contained project.root := by
    intro file hfile
    apply file.contained_of_relative
    exact ProjectStructure.isAbsolute_of_validate hvalid file hfile
  refine ⟨hcontained, ?_, ?_⟩
  . intro file hfile s
    exact (Memory.cleared_removeDirAll project.root s).not_holding (hcontained file hfile).below
  . intro σ fs log store request overwrite s hplan exchanges
    obtain ⟨xs, hrun, _, hcourse⟩ := run_dialogue fs log store request overwrite { inner := s }
    have hexchanges : exchanges = xs := by
      simp only [exchanges, hrun, List.nil_append]
    rw [hexchanges]
    constructor
    . intro path content answer hcall
      apply writeFile_mem_writeSequence_iff.mp
      exact hcourse.mem_writeSequence hplan hcall (by simp)
    . intro path answer hcall
      apply setExecutable_mem_writeSequence_iff.mp
      exact hcourse.mem_writeSequence hplan hcall (by simp)

def upwardTemplate : Template where
  id := "t"
  description := ""
  pathStyle := .default
  files := [{ path := .ofString "src/%\x7bDIR\x7d/a", content := "1" },
    { path := .ofString "%\x7bDIR\x7d/b", content := "2" }]

def upwardStore : Store := ⟨Std.TreeMap.empty.insert "t" upwardTemplate⟩

def upwardRequest : ScaffoldRequest where
  template := "t"
  context := (⟨∅⟩ : Context).bind "DIR" ".."
  root := .ofString "out"

def innerFile : ProjectFile := ⟨.ofString "src/../a", "1", false⟩

def outerFile : ProjectFile := ⟨.ofString "../b", "2", false⟩

def upwardProject : ProjectStructure := ⟨.ofString "out", [innerFile, outerFile]⟩

def upwardRun : Except Error ProjectStructure × Transcribed Memory :=
  run (Transcribed.filesystem Memory.storage.filesystem) (Transcribed.log Memory.storage.log)
    upwardStore upwardRequest false { inner := {} }

theorem render_upwardTemplate
    : upwardTemplate.render upwardRequest.context upwardRequest.root = .ok upwardProject := by decide +kernel

theorem upward_contained :
    upwardTemplate.render upwardRequest.context upwardRequest.root = .ok upwardProject ∧
    upwardStore.plan upwardRequest = .ok upwardProject ∧
    outerFile.Contained upwardRequest.root ∧
    (∀ path content answer, .call (.writeFile path content) answer ∈ upwardRun.2.exchanges →
      ∃ file ∈ upwardProject.files,
        upwardRequest.root.join file.path = path ∧ file.content = content) := by
  have hplan : upwardStore.plan upwardRequest = .ok upwardProject := by decide +kernel
  obtain ⟨hcontained, _, hrun⟩ := contained_of_render render_upwardTemplate
  have hcalls := hrun Memory.storage.filesystem Memory.storage.log upwardStore upwardRequest false {} hplan
  exact ⟨render_upwardTemplate, hplan, hcontained outerFile (by simp [upwardProject]), hcalls.1⟩

theorem upward_outside :
    upwardTemplate.render upwardRequest.context upwardRequest.root = .ok upwardProject ∧
    outerFile ∈ upwardProject.files ∧
    ¬NeverClimbs outerFile.path.components ∧
    ¬(upwardProject.location outerFile).resolve.Within upwardRequest.root.resolve ∧
    .done (.writeFile (upwardProject.location outerFile) "2") ∈ upwardRun.2.exchanges := by
  have hcomponents : outerFile.path.components = [.parent, .normal [98]] := by decide +kernel
  have houtside : (upwardProject.location outerFile).resolve = ⟨false, 0, [[98]]⟩ := by decide +kernel
  have hroot : upwardRequest.root.resolve = ⟨false, 0, [[111, 117, 116]]⟩ := by decide +kernel
  have hexchanges : upwardRun.2.exchanges =
      [.asked upwardRequest.root false,
       .done (.createDirAll upwardRequest.root),
       .done (.createDirAll (.ofString "out/src/..")),
       .done (.writeFile (.ofString "out/src/../a") "1"),
       .done (.createDirAll (.ofString "out/..")),
       .done (.writeFile (.ofString "out/../b") "2")] := by decide +kernel
  have hlocation : upwardProject.location outerFile = .ofString "out/../b" := by decide +kernel
  refine ⟨render_upwardTemplate, by simp [upwardProject], ?_, ?_, ?_⟩
  . intro hclimbs
    have hfront : [Component.parent] <+: outerFile.path.components := by
      rw [hcomponents]
      apply List.prefix_append [Component.parent]
    exact absurd (hclimbs [.parent] hfront) (by decide)
  . rw [houtside, hroot]
    rintro ⟨-, -, hnames⟩
    exact absurd hnames (by decide)
  . rw [hexchanges, hlocation]
    simp

end Scaffold
end RunnerKit
