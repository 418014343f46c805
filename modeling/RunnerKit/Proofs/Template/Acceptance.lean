import Mathlib.Data.List.Induction
import RunnerKit.Template.Basic
/-!
This module contains which templates are accepted: those that are well formed, whether they come as a
whole or are put together step by step.
-/

namespace RunnerKit

namespace Template

structure WellFormed (files : List TemplateFile) : Prop where
  relative : ∀ file ∈ files, file.path.isAbsolute = false
  distinct : files.Pairwise fun file other => ¬file.path.SamePlace other.path

/--
What is wrong with a file that comes after others. That its place is taken counts only if its path is
relative.
-/
inductive Offends (before : List TemplateFile) (file : TemplateFile) : Violation → Prop where
  | absolute (habsolute : file.path.isAbsolute = true)
    : Offends before file (.absolutePath file.path.display)
  | repeated (hrelative : file.path.isAbsolute = false)
      (htaken : ∃ other ∈ before, other.path.SamePlace file.path)
    : Offends before file (.duplicatePath file.path.display)

/--
What comes of checking a template. It needs files, and the first of them that offends decides the
error.
-/
inductive Verdict (t : Template) : Except Violation Unit → Prop where
  | empty (hfiles : t.files = []) : Verdict t (.error (.emptyTemplate t.id))
  | refused {before after : List TemplateFile} {file : TemplateFile} {v : Violation}
      (hfiles : t.files = before ++ file :: after) (hbefore : WellFormed before)
      (hfile : Offends before file v)
    : Verdict t (.error v)
  | accepted (hsome : t.files ≠ []) (hfiles : WellFormed t.files) : Verdict t (.ok ())

section

variable {before after : List TemplateFile} {file : TemplateFile} {v : Violation}

theorem WellFormed.nil : WellFormed [] where
  relative := by simp
  distinct := .nil

theorem WellFormed.of_append (h : WellFormed (before ++ after)) : WellFormed before where
  relative file hfile := h.relative file (List.mem_append_left after hfile)
  distinct := (List.pairwise_append.mp h.distinct).1

theorem isAbsolute_of_not_offends (h : ∀ v, ¬Offends before file v)
    : file.path.isAbsolute = false := by
  rw [← Bool.not_eq_true]
  exact fun habsolute => h _ (.absolute habsolute)

theorem wellFormed_concat_iff
    : WellFormed (before ++ [file]) ↔ WellFormed before ∧ ∀ v, ¬Offends before file v := by
  constructor
  . intro h
    refine ⟨h.of_append, ?_⟩
    intro v hfile
    cases hfile with
    | absolute habsolute => simp [h.relative file (by simp)] at habsolute
    | repeated _ htaken =>
      obtain ⟨other, hother, hplace⟩ := htaken
      exact (List.pairwise_append.mp h.distinct).2.2 other hother file (by simp) hplace
  . rintro ⟨hbefore, hfile⟩
    have hrelative := isAbsolute_of_not_offends hfile
    constructor
    . simpa [or_imp, forall_and, hrelative] using hbefore.relative
    . rw [List.pairwise_append]
      refine ⟨hbefore.distinct, List.pairwise_singleton _ _, ?_⟩
      intro other hother last hlast hplace
      rw [List.mem_singleton.mp hlast] at hplace
      exact hfile _ (.repeated hrelative ⟨other, hother, hplace⟩)

theorem wellFormed_or_offends (files : List TemplateFile)
    : WellFormed files ∨
      ∃ before file after v, files = before ++ file :: after ∧ WellFormed before ∧
        Offends before file v := by
  induction files using List.reverseRecOn with
  | nil => exact Or.inl .nil
  | append_singleton files last ih =>
    cases ih with
    | inr h =>
      obtain ⟨before, file, after, v, hfiles, h⟩ := h
      exact Or.inr ⟨before, file, after ++ [last], v, by simp [hfiles], h⟩
    | inl h =>
      by_cases hlast : ∃ v, Offends files last v
      . obtain ⟨v, hlast⟩ := hlast
        exact Or.inr ⟨files, last, [], v, rfl, h, hlast⟩
      . rw [not_exists] at hlast
        exact Or.inl (wellFormed_concat_iff.mpr ⟨h, hlast⟩)

def places (files : List TemplateFile) : List (List Component) :=
  (files.map (·.path.components)).reverse

theorem mem_places_iff
    : file.path.components ∈ places before ↔ ∃ other ∈ before, other.path.SamePlace file.path := by
  simp [places, Path.SamePlace]

theorem checkFiles_of_offends (h : Offends before file v) (after : List TemplateFile)
    : checkFiles (places before) (file :: after) = .error v := by
  cases h with
  | absolute habsolute => rw [checkFiles, if_pos habsolute]
  | repeated hrelative htaken =>
    rw [checkFiles, hrelative, if_neg Bool.false_ne_true, if_pos (mem_places_iff.mpr htaken)]

theorem checkFiles_of_not_offends (h : ∀ v, ¬Offends before file v) (after : List TemplateFile)
    : checkFiles (places before) (file :: after) = checkFiles (places (before ++ [file])) after := by
  have hrelative := isAbsolute_of_not_offends h
  have hfree : file.path.components ∉ places before := by
    rw [mem_places_iff]
    exact fun htaken => h _ (.repeated hrelative htaken)
  rw [checkFiles, hrelative, if_neg Bool.false_ne_true, if_neg hfree]
  simp [places]

theorem checkFiles_append (h : WellFormed before) (after : List TemplateFile)
    : checkFiles [] (before ++ after) = checkFiles (places before) after := by
  induction before using List.reverseRecOn generalizing after with
  | nil => rfl
  | append_singleton before last ih =>
    obtain ⟨hbefore, hlast⟩ := wellFormed_concat_iff.mp h
    rw [List.append_assoc, List.singleton_append, ih hbefore, checkFiles_of_not_offends hlast]

end

theorem Verdict.validate_eq {t : Template} {result : Except Violation Unit} (h : t.Verdict result)
    : t.validate = result := by
  unfold validate
  cases h with
  | empty hfiles => rw [hfiles, List.isEmpty_nil, if_pos rfl]
  | refused hfiles hbefore hfile =>
    rw [hfiles, if_neg (by simp), checkFiles_append hbefore, checkFiles_of_offends hfile]
  | accepted hsome hfiles =>
    have hcheck := checkFiles_append hfiles []
    rw [List.append_nil] at hcheck
    rw [if_neg (by simpa using hsome), hcheck, checkFiles]

theorem exists_verdict (t : Template) : ∃ result, t.Verdict result := by
  by_cases hnil : t.files = []
  . exact ⟨_, .empty hnil⟩
  . cases wellFormed_or_offends t.files with
    | inl h => exact ⟨_, .accepted hnil h⟩
    | inr h =>
      obtain ⟨before, file, after, v, hfiles, hbefore, hfile⟩ := h
      exact ⟨_, .refused hfiles hbefore hfile⟩

theorem validate_eq_iff_verdict (t : Template) (result : Except Violation Unit)
    : t.validate = result ↔ t.Verdict result := by
  constructor
  . intro h
    obtain ⟨verdict, hverdict⟩ := t.exists_verdict
    rw [← h, hverdict.validate_eq]
    exact hverdict
  . exact Verdict.validate_eq

end Template

inductive DraftStep where
  | setId (id : String)
  | setDescription (description : String)
  | setPathStyle (pathStyle : PathStyle)
  | addFile (file : TemplateFile)

def TemplateDraft.take (d : TemplateDraft) : DraftStep → TemplateDraft
  | .setId id => d.withId id
  | .setDescription description => d.withDescription description
  | .setPathStyle pathStyle => d.withPathStyle pathStyle
  | .addFile file => d.addFile file

def TemplateDraft.ofSteps (steps : List DraftStep) : TemplateDraft := steps.foldl take {}

namespace DraftStep

def id? : DraftStep → Option String
  | setId id => some id
  | _ => none

def description? : DraftStep → Option String
  | setDescription description => some description
  | _ => none

def pathStyle? : DraftStep → Option PathStyle
  | setPathStyle pathStyle => some pathStyle
  | _ => none

def file? : DraftStep → Option TemplateFile
  | addFile file => some file
  | _ => none

/--
Whether some steps describe a template. What was set last counts, and every file that was added does.
-/
structure Describe (steps : List DraftStep) (t : Template) : Prop where
  id : (steps.filterMap id?).getLast? = some t.id
  description : ((steps.filterMap description?).getLast?).getD "" = t.description
  pathStyle : ((steps.filterMap pathStyle?).getLast?).getD .default = t.pathStyle
  files : steps.filterMap file? = t.files

/--
What comes of some steps. Without an id there is no template to check.
-/
inductive Building (steps : List DraftStep) : Except Violation Template → Prop where
  | nameless (hid : ∀ id, setId id ∉ steps) : Building steps (.error (.missingField "id"))
  | refused {t : Template} {v : Violation} (ht : Describe steps t) (hverdict : t.Verdict (.error v))
    : Building steps (.error v)
  | built {t : Template} (ht : Describe steps t) (hverdict : t.Verdict (.ok ()))
    : Building steps (.ok t)

variable {steps : List DraftStep}

theorem ofSteps_eq (steps : List DraftStep)
    : TemplateDraft.ofSteps steps =
      { id? := (steps.filterMap id?).getLast?
        description := ((steps.filterMap description?).getLast?).getD ""
        pathStyle := ((steps.filterMap pathStyle?).getLast?).getD .default
        files := steps.filterMap file? } := by
  induction steps using List.reverseRecOn with
  | nil => rfl
  | append_singleton steps step ih =>
    rw [TemplateDraft.ofSteps, List.foldl_append, ← TemplateDraft.ofSteps, ih]
    cases step <;>
      simp [TemplateDraft.take, TemplateDraft.withId, TemplateDraft.withDescription,
        TemplateDraft.withPathStyle, TemplateDraft.addFile, id?, description?, pathStyle?, file?]

theorem getLast?_id?_eq_none_iff
    : (steps.filterMap id?).getLast? = none ↔ ∀ id, setId id ∉ steps := by
  rw [List.getLast?_eq_none_iff, List.filterMap_eq_nil_iff]
  constructor
  . intro h id hid
    cases h _ hid
  . intro h step hstep
    cases step with
    | setId id => exact absurd hstep (h id)
    | _ => rfl

theorem Describe.build_eq {t : Template} (h : Describe steps t)
    : (TemplateDraft.ofSteps steps).build = t.validate.map fun _ => t := by
  rw [ofSteps_eq, h.id, h.description, h.pathStyle, h.files]
  rfl

theorem Building.build_eq {result : Except Violation Template} (h : Building steps result)
    : (TemplateDraft.ofSteps steps).build = result := by
  cases h with
  | nameless hid =>
    rw [ofSteps_eq, getLast?_id?_eq_none_iff.mpr hid]
    rfl
  | refused ht hverdict =>
    rw [ht.build_eq, hverdict.validate_eq]
    rfl
  | built ht hverdict =>
    rw [ht.build_eq, hverdict.validate_eq]
    rfl

theorem exists_building (steps : List DraftStep) : ∃ result, Building steps result := by
  cases hid : (steps.filterMap id?).getLast? with
  | none => exact ⟨_, .nameless (getLast?_id?_eq_none_iff.mp hid)⟩
  | some id =>
    obtain ⟨t, ht⟩ : ∃ t, Describe steps t := ⟨⟨id, _, _, _⟩, hid, rfl, rfl, rfl⟩
    obtain ⟨result, hverdict⟩ := t.exists_verdict
    cases result with
    | error v => exact ⟨_, .refused ht hverdict⟩
    | ok => exact ⟨_, .built ht hverdict⟩

theorem build_eq_iff_building (steps : List DraftStep) (result : Except Violation Template)
    : (TemplateDraft.ofSteps steps).build = result ↔ Building steps result := by
  constructor
  . intro h
    obtain ⟨outcome, houtcome⟩ := exists_building steps
    rw [← h, houtcome.build_eq]
    exact houtcome
  . exact Building.build_eq

end DraftStep

theorem Template.accepted_iff_wellFormed
    : (∀ (t : Template) (result : Except Violation Unit), t.validate = result ↔ t.Verdict result) ∧
      ∀ (steps : List DraftStep) (result : Except Violation Template),
        (TemplateDraft.ofSteps steps).build = result ↔ DraftStep.Building steps result :=
  ⟨validate_eq_iff_verdict, DraftStep.build_eq_iff_building⟩

end RunnerKit
