import RunnerKit.Proofs.Identity
import RunnerKit.Proofs.Path.Names
import RunnerKit.Proofs.Path.Parent
import RunnerKit.Proofs.Scaffold.Generation
import RunnerKit.Proofs.Template.Builtin
/-!
This module contains where the files of a runner's project are. They are in a directory that is named
after the application, and none of them is reached through dots.
-/

namespace RunnerKit

theorem AppName.isFileName_lowercase (app : AppName) : Path.IsFileName app.lowercase := by
  have hidentifier := app.isIdentifier_lowercase
  constructor
  . intro hslash
    have hword := hidentifier.isWord '/' hslash
    simp [IsWord, IsLetter, IsDigit] at hword
  . obtain ⟨first, rest, htext, hfirst, _⟩ := hidentifier
    refine ⟨first, by simp [htext], ?_⟩
    rintro rfl
    simp [IsLetter] at hfirst

def Path.IsIn (directory : String) (path : Path) : Prop :=
  ∃ names : List Name, names ≠ [] ∧
    path.components = .normal (utf8Bytes directory) :: names.map .normal

/--
Whether a call concerns such a directory and nothing else. No file takes the place of the directory.
-/
def Call.KeepsTo (directory : String) (call : Call) : Prop :=
  call.path.IsIn directory ∨
    call.path.components = [.normal (utf8Bytes directory)] ∧ call.written? = none

namespace RunnerProject

variable (p : RunnerProject) {app : AppName} {file : ProjectFile}

theorem exists_names (hfile : file ∈ p.files app)
    : ∃ text names, file.path = .ofString text ∧ names ≠ [] ∧
        Path.componentsOfNames (Path.splitSlashes (utf8Bytes text)) = names.map .normal := by
  have hname {text : String} (h : Path.IsFileName text)
      : ∃ text' names, Path.ofString text = .ofString text' ∧ names ≠ [] ∧
          Path.componentsOfNames (Path.splitSlashes (utf8Bytes text')) = names.map .normal :=
    ⟨text, [utf8Bytes text], rfl, List.cons_ne_nil _ _, h.componentsOfNames_eq⟩
  have hmanifest : Path.IsFileName "Cargo.toml" := ⟨by decide, 'C', by decide, by decide⟩
  have hreadme : Path.IsFileName "README.md" := ⟨by decide, 'R', by decide, by decide⟩
  have hlowercase := app.isFileName_lowercase
  simp only [files, List.mem_cons, List.not_mem_nil, or_false] at hfile
  obtain rfl | rfl | rfl | rfl | rfl := hfile
  . exact hname hmanifest
  . exact ⟨"src/main.rs", [utf8Bytes "src", utf8Bytes "main.rs"], rfl, by simp, by decide +kernel⟩
  . exact hname (hlowercase.append (by decide))
  . exact hname ((hlowercase.append_left (by decide)).append (by decide))
  . exact hname hreadme

theorem isIn_join (hfile : file ∈ p.files app)
    : ((Path.ofString app.lowercase).join file.path).IsIn app.lowercase := by
  obtain ⟨text, names, hpath, hne, hnames⟩ := p.exists_names hfile
  have hrelative := (p.wellPlaced_files app).relative file hfile
  refine ⟨names, hne, ?_⟩
  rw [Path.components_join app.isFileName_lowercase.isEmpty_eq_false hrelative, hpath,
    app.isFileName_lowercase.components_ofString]
  exact congrArg _ hnames

theorem ofString_display_join (hfile : file ∈ p.files app)
    : .ofString ((Path.ofString app.lowercase).join file.path).display =
      (Path.ofString app.lowercase).join file.path := by
  obtain ⟨text, _, hpath, _⟩ := p.exists_names hfile
  have hrelative := (p.wellPlaced_files app).relative file hfile
  rw [hpath] at hrelative
  rw [hpath, app.isFileName_lowercase.join_ofString text hrelative, Path.display_ofString]

end RunnerProject

namespace Scaffold

theorem filterMap_written?_fileSequence (root : Path) (file : ProjectFile)
    : (fileSequence root file).filterMap Call.written? = [root.join file.path] := by
  simp only [fileSequence]
  cases (root.join file.path).parent? <;> cases file.executable <;> rfl

theorem filterMap_written?_writeSequence (root : Path) (files : List ProjectFile)
    : (writeSequence root files).filterMap Call.written? = files.map (root.join ·.path) := by
  have hfiles : (files.flatMap (fileSequence root)).filterMap Call.written? =
      files.map (root.join ·.path) := by
    induction files with
    | nil => rfl
    | cons file files ih =>
      rw [List.flatMap_cons, List.filterMap_append, filterMap_written?_fileSequence, ih]
      rfl
  exact hfiles

theorem keepsTo_of_mem_writeSequence {p : RunnerProject} {app : AppName} {call : Call}
    (hcall : call ∈ writeSequence (.ofString app.lowercase) (p.files app))
    : call.KeepsTo app.lowercase := by
  -- The root is named after the application, whose name is a single component.
  cases call with
  | createDirAll path =>
    rw [createDirAll_mem_writeSequence_iff] at hcall
    obtain rfl | ⟨file, hfile, hparent⟩ := hcall
    . exact Or.inr ⟨app.isFileName_lowercase.components_ofString, rfl⟩
    . obtain ⟨names, hne, hnames⟩ := p.isIn_join hfile
      have hcomponents : path.components =
          .normal (utf8Bytes app.lowercase) :: names.dropLast.map .normal := by
        rw [Path.components_of_parent?_eq_some hparent, hnames, List.map_dropLast]
        exact List.dropLast_cons_of_ne_nil (by simpa using hne)
      by_cases hdirect : names.dropLast = []
      . rw [hdirect] at hcomponents
        exact Or.inr ⟨hcomponents, rfl⟩
      . exact Or.inl ⟨_, hdirect, hcomponents⟩
  | writeFile path content =>
    rw [writeFile_mem_writeSequence_iff] at hcall
    obtain ⟨file, hfile, rfl, _⟩ := hcall
    exact Or.inl (p.isIn_join hfile)
  | setExecutable path =>
    rw [setExecutable_mem_writeSequence_iff] at hcall
    obtain ⟨file, hfile, _, rfl⟩ := hcall
    exact Or.inl (p.isIn_join hfile)
  | removeDirAll path => exact absurd hcall removeDirAll_notMem_writeSequence

theorem Course.keepsTo {store : Store} {request : ScaffoldRequest} {overwrite : Bool}
    {xs : List Exchange} {result : Except Error ProjectStructure}
    (h : Course store request overwrite xs result) {p : RunnerProject} {app : AppName}
    (hplan : store.plan request = .ok { root := .ofString app.lowercase, files := p.files app })
    {call : Call} {answer : Except Error Unit} (hcall : .call call answer ∈ xs)
    : call.KeepsTo app.lowercase := by
  have hroot : Path.ofString app.lowercase = request.root := store.root_of_plan hplan
  obtain ⟨project, hproject, hmem⟩ | rfl := h.mem_or_eq hcall
  . cases hproject.symm.trans hplan
    rw [← hroot] at hmem
    exact keepsTo_of_mem_writeSequence hmem
  . rw [← hroot]
    exact Or.inr ⟨app.isFileName_lowercase.components_ofString, rfl⟩

theorem Course.of_no_failure {store : Store} {request : ScaffoldRequest} {overwrite : Bool}
    {xs : List Exchange} {result : Except Error ProjectStructure} {project : ProjectStructure}
    (h : Course store request overwrite xs result) (hplan : store.plan request = .ok project)
    (hfree : overwrite = true ∨
      ∀ answer, xs.head? = some (.asked request.root answer) → answer = false)
    (hdone : ∀ call e, .call call (.error e) ∉ xs)
    : result = .ok project ∧
      (xs.filterMap Exchange.call?).filterMap Call.written? =
        project.files.map (request.root.join ·.path) := by
  cases h with
  | unplanned hplan' => cases hplan.symm.trans hplan'
  | blocked _ hclearing =>
    cases hclearing with
    | occupied hoverwrite => simp [hoverwrite] at hfree
    | unremoved => exact absurd (List.mem_cons_of_mem _ List.mem_cons_self) (hdone _ _)
  | written hplan' hclearing hwriting =>
    cases hplan.symm.trans hplan'
    cases hwriting
    refine ⟨rfl, ?_⟩
    rw [List.filterMap_append, Exchange.filterMap_call?_map_done, List.filterMap_append,
      filterMap_written?_writeSequence]
    cases hclearing <;> rfl
  | @rolledBack _ _ _ e _ _ hwriting =>
    cases hwriting with
    | @rolledBack _ _ call => exact absurd (by simp) (hdone call e)

end Scaffold
end RunnerKit
