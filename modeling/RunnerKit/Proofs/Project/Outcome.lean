import Mathlib.Data.List.Forall2
import Mathlib.Data.List.Induction
import RunnerKit.Proofs.Project.Render
/-!
This module contains what comes of rendering a template: the project that it becomes, or the one of
its faults that decides the error.
-/

namespace RunnerKit

namespace TemplateFile

structure Becomes (ctx : Context) (file : TemplateFile) (rendered : ProjectFile) : Prop where
  path : ∃ text, ctx.render file.path.display = .ok text ∧ rendered.path = .ofString text
  content : ctx.render file.content = .ok rendered.content
  executable : rendered.executable = file.executable

/--
What keeps a file from being rendered. A fault of the content counts only if the path has none.
-/
inductive Faulty (ctx : Context) (file : TemplateFile) : Violation → Prop where
  | path {v : Violation} (hpath : ctx.render file.path.display = .error v) : Faulty ctx file v
  | content {text : String} {v : Violation} (hpath : ctx.render file.path.display = .ok text)
      (hcontent : ctx.render file.content = .error v) : Faulty ctx file v

variable {ctx : Context} {file : TemplateFile}

theorem Becomes.render_eq {rendered : ProjectFile} (h : file.Becomes ctx rendered)
    : file.render ctx = .ok rendered := by
  obtain ⟨⟨text, htext, hpath⟩, hcontent, hexecutable⟩ := h
  simp only [render, Context.renderPath, htext, Except.map, hcontent]
  rw [← hpath, ← hexecutable]

theorem Faulty.render_eq {v : Violation} (h : file.Faulty ctx v)
    : file.render ctx = .error (file.renderingFailed v) := by
  cases h with
  | path hpath => simp only [render, Context.renderPath, hpath, Except.map]
  | content hpath hcontent => simp only [render, Context.renderPath, hpath, Except.map, hcontent]

theorem becomes_or_faulty (ctx : Context) (file : TemplateFile)
    : (∃ rendered, file.Becomes ctx rendered) ∨ ∃ v, file.Faulty ctx v := by
  cases hpath : ctx.render file.path.display with
  | error v => exact Or.inr ⟨v, .path hpath⟩
  | ok text =>
    cases hcontent : ctx.render file.content with
    | error v => exact Or.inr ⟨v, .content hpath hcontent⟩
    | ok content =>
      exact Or.inl ⟨⟨.ofString text, content, file.executable⟩, ⟨text, hpath, rfl⟩, hcontent, rfl⟩

end TemplateFile

section

variable {ctx : Context} {before after files : List TemplateFile} {rendered : List ProjectFile}

theorem renderFiles_append (h : List.Forall₂ (TemplateFile.Becomes ctx) before rendered)
    (after : List TemplateFile)
    : renderFiles ctx (before ++ after) = (renderFiles ctx after).map (rendered ++ ·) := by
  induction h with
  | nil =>
    simp only [List.nil_append]
    cases renderFiles ctx after <;> rfl
  | cons hfile _ ih =>
    rw [List.cons_append, renderFiles, hfile.render_eq, ih]
    cases renderFiles ctx after <;> rfl

theorem renderFiles_eq_ok (h : List.Forall₂ (TemplateFile.Becomes ctx) files rendered)
    : renderFiles ctx files = .ok rendered := by
  have happend := renderFiles_append h []
  simpa [renderFiles, Except.map] using happend

theorem renderFiles_eq_error (h : List.Forall₂ (TemplateFile.Becomes ctx) before rendered)
    {file : TemplateFile} {v : Violation} (hfile : file.Faulty ctx v)
    : renderFiles ctx (before ++ file :: after) = .error (file.renderingFailed v) := by
  rw [renderFiles_append h, renderFiles, hfile.render_eq]
  rfl

theorem forall₂_becomes_or_faulty (ctx : Context) (files : List TemplateFile)
    : (∃ rendered, List.Forall₂ (TemplateFile.Becomes ctx) files rendered) ∨
      ∃ before file after rendered v, files = before ++ file :: after ∧
        List.Forall₂ (TemplateFile.Becomes ctx) before rendered ∧ file.Faulty ctx v := by
  induction files with
  | nil => exact Or.inl ⟨[], .nil⟩
  | cons first files ih =>
    cases first.becomes_or_faulty ctx with
    | inr hfault =>
      obtain ⟨v, hfault⟩ := hfault
      exact Or.inr ⟨[], first, files, [], v, rfl, .nil, hfault⟩
    | inl hfirst =>
      obtain ⟨file, hfirst⟩ := hfirst
      cases ih with
      | inl h =>
        obtain ⟨rendered, h⟩ := h
        exact Or.inl ⟨file :: rendered, .cons hfirst h⟩
      | inr h =>
        obtain ⟨before, faulty, after, rendered, v, hfiles, hbefore, hfault⟩ := h
        refine Or.inr ⟨first :: before, faulty, after, file :: rendered, v, ?_, ?_, hfault⟩
        . rw [hfiles]
          rfl
        . exact .cons hfirst hbefore

end

structure WellPlaced (files : List ProjectFile) : Prop where
  relative : ∀ file ∈ files, file.path.isAbsolute = false
  distinct : files.Pairwise fun file other => file.path.display ≠ other.path.display

/--
What is wrong with the path of a file that comes after others. That it is absolute counts only if no
file before it is shown the same way.
-/
inductive Misplaced (before : List ProjectFile) (file : ProjectFile) : Violation → Prop where
  | duplicate (hshown : ∃ other ∈ before, other.path.display = file.path.display)
    : Misplaced before file (.duplicatePath file.path.display)
  | absolute (hnew : ∀ other ∈ before, other.path.display ≠ file.path.display)
      (habsolute : file.path.isAbsolute = true)
    : Misplaced before file (.absolutePath file.path.display)

section

variable {before after files : List ProjectFile} {file : ProjectFile} {v : Violation}

theorem WellPlaced.nil : WellPlaced [] where
  relative := by simp
  distinct := .nil

theorem WellPlaced.of_append (h : WellPlaced (before ++ after)) : WellPlaced before where
  relative file hfile := h.relative file (List.mem_append_left after hfile)
  distinct := (List.pairwise_append.mp h.distinct).1

theorem wellPlaced_concat_iff : WellPlaced (before ++ [file]) ↔
    WellPlaced before ∧ (∀ other ∈ before, other.path.display ≠ file.path.display) ∧
      file.path.isAbsolute = false := by
  constructor
  . intro h
    have hnew := (List.pairwise_append.mp h.distinct).2.2
    refine ⟨h.of_append, ?_, h.relative file (by simp)⟩
    intro other hother
    exact hnew other hother file List.mem_cons_self
  . rintro ⟨hbefore, hnew, hrelative⟩
    constructor
    . simpa [or_imp, forall_and, hrelative] using hbefore.relative
    . simpa [List.pairwise_append, hbefore.distinct] using hnew

theorem wellPlaced_or_misplaced (files : List ProjectFile)
    : WellPlaced files ∨
      ∃ before file after v, files = before ++ file :: after ∧ WellPlaced before ∧
        Misplaced before file v := by
  induction files using List.reverseRecOn with
  | nil => exact Or.inl .nil
  | append_singleton files last ih =>
    cases ih with
    | inr h =>
      obtain ⟨before, file, after, v, hfiles, hbefore, hfile⟩ := h
      exact Or.inr ⟨before, file, after ++ [last], v, by simp [hfiles], hbefore, hfile⟩
    | inl h =>
      by_cases hshown : ∃ other ∈ files, other.path.display = last.path.display
      . exact Or.inr ⟨files, last, [], _, rfl, h, .duplicate hshown⟩
      . simp only [not_exists, not_and] at hshown
        cases habsolute : last.path.isAbsolute with
        | true => exact Or.inr ⟨files, last, [], _, rfl, h, .absolute hshown habsolute⟩
        | false => exact Or.inl (wellPlaced_concat_iff.mpr ⟨h, hshown, habsolute⟩)

namespace ProjectStructure

def shownPaths (files : List ProjectFile) : List String := (files.map (·.path.display)).reverse

@[simp]
theorem shownPaths_nil : shownPaths [] = [] := rfl

theorem mem_shownPaths {shown : String}
    : shown ∈ shownPaths files ↔ ∃ file ∈ files, file.path.display = shown := by
  simp [shownPaths]

theorem shownPaths_concat : shownPaths (before ++ [file]) = file.path.display :: shownPaths before := by
  simp [shownPaths]

theorem checkFiles_of_wellPlaced (h : WellPlaced (before ++ [file])) (after : List ProjectFile)
    : checkFiles (shownPaths before) (file :: after) =
      checkFiles (shownPaths (before ++ [file])) after := by
  obtain ⟨_, hnew, hrelative⟩ := wellPlaced_concat_iff.mp h
  have hshown : file.path.display ∉ shownPaths before := by simpa [mem_shownPaths] using hnew
  rw [checkFiles, if_neg hshown, hrelative, shownPaths_concat]
  rfl

theorem checkFiles_of_misplaced (h : Misplaced before file v) (after : List ProjectFile)
    : checkFiles (shownPaths before) (file :: after) = .error v := by
  cases h with
  | duplicate hshown => rw [checkFiles, if_pos (mem_shownPaths.mpr hshown)]
  | absolute hnew habsolute =>
    have hshown : file.path.display ∉ shownPaths before := by simpa [mem_shownPaths] using hnew
    rw [checkFiles, if_neg hshown, if_pos habsolute]

theorem checkFiles_append (before files : List ProjectFile) (h : WellPlaced (before ++ files))
    (after : List ProjectFile)
    : checkFiles (shownPaths before) (files ++ after) =
      checkFiles (shownPaths (before ++ files)) after := by
  induction files generalizing before with
  | nil => simp
  | cons file files ih =>
    rw [List.append_cons] at h ⊢
    rw [List.cons_append, checkFiles_of_wellPlaced h.of_append, ih _ h]

theorem validate_of_wellPlaced {root : Path} (hsome : files ≠ []) (h : WellPlaced files)
    : validate { root, files } = .ok () := by
  have hcheck : checkFiles (shownPaths []) (files ++ []) = .ok () := checkFiles_append [] files h []
  rw [List.append_nil] at hcheck
  simpa [validate, hsome] using hcheck

theorem validate_of_misplaced {root : Path} (hbefore : WellPlaced before)
    (h : Misplaced before file v)
    : validate { root, files := before ++ file :: after } = .error v := by
  have hcheck : checkFiles (shownPaths []) (before ++ file :: after) = _ :=
    checkFiles_append [] before hbefore (file :: after)
  rw [List.nil_append, checkFiles_of_misplaced h] at hcheck
  simpa [validate] using hcheck

theorem wellPlaced_of_validate {project : ProjectStructure} (h : project.validate = .ok ())
    : WellPlaced project.files := by
  obtain ⟨root, files⟩ := project
  cases wellPlaced_or_misplaced files with
  | inl hplaced => exact hplaced
  | inr hmisplaced =>
    obtain ⟨before, file, after, v, rfl, hbefore, hfile⟩ := hmisplaced
    rw [validate_of_misplaced hbefore hfile] at h
    cases h

end ProjectStructure

end

namespace Template

/--
What comes of a template. Its own faults come first, then those of its files in their order and then
those of the places that the rendered files have.
-/
inductive Rendering (t : Template) (ctx : Context) (root : Path)
    : Except Error ProjectStructure → Prop where
  | invalid {v : Violation} (hinvalid : t.validate = .error v)
    : Rendering t ctx root (.error (.violation v))
  | faulty {before after : List TemplateFile} {file : TemplateFile} {rendered : List ProjectFile}
      {v : Violation} (hvalid : t.validate = .ok ()) (hfiles : t.files = before ++ file :: after)
      (hbefore : List.Forall₂ (TemplateFile.Becomes ctx) before rendered)
      (hfaulty : file.Faulty ctx v)
    : Rendering t ctx root
        (.error (.failure (.rendering (file.path.display ++ ": " ++ v.message))))
  | misplaced {before after : List ProjectFile} {file : ProjectFile} {v : Violation}
      (hvalid : t.validate = .ok ())
      (hfiles : List.Forall₂ (TemplateFile.Becomes ctx) t.files (before ++ file :: after))
      (hbefore : WellPlaced before) (hmisplaced : Misplaced before file v)
    : Rendering t ctx root (.error (.violation v))
  | rendered {files : List ProjectFile} (hvalid : t.validate = .ok ())
      (hfiles : List.Forall₂ (TemplateFile.Becomes ctx) t.files files) (hsome : files ≠ [])
      (hplaced : WellPlaced files)
    : Rendering t ctx root (.ok { root, files })

variable {t : Template} {ctx : Context} {root : Path}

theorem files_ne_nil_of_validate (h : t.validate = .ok ()) : t.files ≠ [] := by
  intro hnil
  simp [validate, hnil] at h

theorem Rendering.render_eq {result : Except Error ProjectStructure}
    (h : t.Rendering ctx root result) : t.render ctx root = result := by
  unfold render
  cases h with
  | invalid hinvalid =>
    rw [hinvalid]
    rfl
  | faulty hvalid hfiles hbefore hfaulty =>
    rw [hvalid, hfiles, renderFiles_eq_error hbefore hfaulty]
    rfl
  | misplaced hvalid hfiles hbefore hmisplaced =>
    rw [hvalid, renderFiles_eq_ok hfiles]
    simp only [liftViolation, bind, Except.bind, ProjectStructure.foldl_add, List.nil_append,
      ProjectStructure.validate_of_misplaced hbefore hmisplaced]
  | rendered hvalid hfiles hsome hplaced =>
    rw [hvalid, renderFiles_eq_ok hfiles]
    simp only [liftViolation, bind, Except.bind, pure, Except.pure, ProjectStructure.foldl_add,
      List.nil_append, ProjectStructure.validate_of_wellPlaced hsome hplaced]

theorem exists_rendering (t : Template) (ctx : Context) (root : Path)
    : ∃ result, t.Rendering ctx root result := by
  cases hvalid : t.validate with
  | error v => exact ⟨_, .invalid hvalid⟩
  | ok =>
    cases forall₂_becomes_or_faulty ctx t.files with
    | inr h =>
      obtain ⟨before, file, after, rendered, v, hfiles, hbefore, hfaulty⟩ := h
      exact ⟨_, .faulty hvalid hfiles hbefore hfaulty⟩
    | inl h =>
      obtain ⟨files, hfiles⟩ := h
      cases wellPlaced_or_misplaced files with
      | inr h =>
        obtain ⟨before, file, after, v, hsplit, hbefore, hmisplaced⟩ := h
        rw [hsplit] at hfiles
        exact ⟨_, .misplaced hvalid hfiles hbefore hmisplaced⟩
      | inl hplaced =>
        have hsome : files ≠ [] := by
          intro hnil
          rw [hnil, List.forall₂_nil_right_iff] at hfiles
          exact files_ne_nil_of_validate hvalid hfiles
        exact ⟨_, .rendered hvalid hfiles hsome hplaced⟩

theorem render_eq_iff_rendering (t : Template) (ctx : Context) (root : Path)
    (result : Except Error ProjectStructure)
    : t.render ctx root = result ↔ t.Rendering ctx root result := by
  constructor
  . intro hresult
    obtain ⟨outcome, houtcome⟩ := t.exists_rendering ctx root
    rw [← hresult, houtcome.render_eq]
    exact houtcome
  . intro h
    exact h.render_eq

end Template
end RunnerKit
