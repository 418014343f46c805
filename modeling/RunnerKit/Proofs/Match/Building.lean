import RunnerKit.Match.Basic
import RunnerKit.Proofs.Match.Property
import RunnerKit.Proofs.Text.Order
/-!
This module contains what a match holds that is put together step by step. Each of its parts is what
the last step said that is about it, and a property is what was written last under its key, whichever
kind of step wrote it.
-/

namespace RunnerKit

namespace MatchStep

def icon? : MatchStep → Option String
  | .icon name => some name
  | _ => none

def kind? : MatchStep → Option MatchKind
  | .kind value => some value
  | _ => none

def relevance? : MatchStep → Option Relevance
  | .relevance value => some (.ofNumber value)
  | _ => none

/--
What a step writes, and under which key. The steps that are about one property have a key and a type
of their own.
-/
inductive Writes : MatchStep → String → PropertyValue → Prop where
  | subtext (text : String) : Writes (.subtext text) "subtext" (.text text)
  | category (text : String) : Writes (.category text) "category" (.text text)
  | multiline (flag : Bool) : Writes (.multiline flag) "multiline" (.flag flag)
  | urls (urls : List String) : Writes (.urls urls) "urls" (.texts urls)
  | actions (ids : List String) : Writes (.actions ids) "actions" (.texts ids)
  | property (key : String) (value : PropertyValue) : Writes (.property key value) key value

def LastWrite (steps : List MatchStep) (key : String) (value : PropertyValue) : Prop :=
  ∃ before step after, steps = before ++ step :: after ∧ step.Writes key value ∧
    ∀ later ∈ after, ∀ value, ¬later.Writes key value

variable {steps : List MatchStep} {last : MatchStep} {key : String} {value : PropertyValue}

theorem writes_iff : last.Writes key value ↔ last = .property key value := by
  constructor
  . intro h
    cases h <;> rfl
  . rintro rfl
    exact .property key value

theorem not_lastWrite_nil : ¬LastWrite [] key value := by
  simp [LastWrite]

theorem lastWrite_concat_iff
    : LastWrite (steps ++ [last]) key value ↔
      last.Writes key value ∨ (∀ value, ¬last.Writes key value) ∧ LastWrite steps key value := by
  constructor
  . rintro ⟨before, step, after, hsteps, hwrites, hafter⟩
    cases after using List.reverseRecOn with
    | nil =>
      have hlast := (List.append_inj' hsteps rfl).2
      rw [List.cons.injEq] at hlast
      rw [hlast.1]
      exact Or.inl hwrites
    | append_singleton after later =>
      rw [← List.cons_append, ← List.append_assoc] at hsteps
      obtain ⟨hsteps, hlast⟩ := List.append_inj' hsteps rfl
      rw [List.cons.injEq] at hlast
      rw [hlast.1]
      refine Or.inr ⟨hafter later (by simp), before, step, after, hsteps, hwrites, ?_⟩
      exact fun later hlater => hafter later (List.mem_append_left _ hlater)
  . rintro (hwrites | ⟨hlast, before, step, after, rfl, hwrites, hafter⟩)
    . exact ⟨steps, last, [], rfl, hwrites, by simp⟩
    . refine ⟨before, step, after ++ [last], by simp, hwrites, ?_⟩
      intro later hlater
      rw [List.mem_append, List.mem_singleton] at hlater
      cases hlater with
      | inl hlater => exact hafter later hlater
      | inr hlater => rwa [hlater]

end MatchStep

namespace PropertyValue

variable {value : PropertyValue}

theorem text?_eq_some_iff {text : String} : value.text? = some text ↔ value = .text text := by
  cases value <;> simp [text?]

theorem flag?_eq_some_iff {flag : Bool} : value.flag? = some flag ↔ value = .flag flag := by
  cases value <;> simp [flag?]

theorem texts?_eq_some_iff {texts : List String}
    : value.texts? = some texts ↔ value = .texts texts := by
  cases value <;> simp [texts?]

end PropertyValue

namespace Properties

theorem pairwise_toList (p : Properties)
    : p.toList.Pairwise fun entry other => utf8Bytes entry.1 < utf8Bytes other.1 := by
  apply Std.TreeMap.ordered_keys_toList.imp
  intro entry other h
  exact compare_eq_lt_iff.mp h

theorem bind_get?_eq_some_iff {α : Type} {read? : PropertyValue → Option α}
    {make : α → PropertyValue} (hread : ∀ {value a}, read? value = some a ↔ value = make a)
    {p : Properties} {key : String} {a : α}
    : (p.get? key).bind read? = some a ↔ p.get? key = some (make a) := by
  simp [Option.bind_eq_some_iff, hread]

end Properties

namespace Match

open MatchStep (LastWrite)

structure BuiltFrom (id text : String) (steps : List MatchStep) (m : Match) : Prop where
  id_eq : m.id = id
  text_eq : m.text = text
  icon_eq : m.icon = ((steps.filterMap MatchStep.icon?).getLast?).getD ""
  kind_eq : m.kind = ((steps.filterMap MatchStep.kind?).getLast?).getD .possible
  relevance_eq : m.relevance = ((steps.filterMap MatchStep.relevance?).getLast?).getD .min
  ordered : m.properties.toList.Pairwise fun entry other => utf8Bytes entry.1 < utf8Bytes other.1
  mem_iff : ∀ key value, (key, value) ∈ m.properties.toList ↔ LastWrite steps key value
  subtext_iff : ∀ text, m.properties.subtext? = some text ↔
    LastWrite steps "subtext" (.text text)
  category_iff : ∀ text, m.properties.category? = some text ↔
    LastWrite steps "category" (.text text)
  multiline_iff : m.properties.isMultiline = true ↔ LastWrite steps "multiline" (.flag true)
  urls_eq : ∃ urls?, (∀ urls, urls? = some urls ↔ LastWrite steps "urls" (.texts urls)) ∧
    m.properties.urls = urls?.getD []
  actions_iff : ∀ ids, m.properties.actionIds? = some ids ↔ LastWrite steps "actions" (.texts ids)

theorem build_concat (id text : String) (steps : List MatchStep) (last : MatchStep)
    : build id text (steps ++ [last]) = (build id text steps).step last := by
  unfold build
  rw [List.foldl_append]
  rfl

theorem part_build {α : Type} {part : Match → α} {said? : MatchStep → Option α}
    (hstep : ∀ m last, part (step m last) = (said? last).getD (part m)) (id text : String)
    (steps : List MatchStep)
    : part (build id text steps) = ((steps.filterMap said?).getLast?).getD (part { id, text }) := by
  -- By induction from the last step backwards, since the last step that says something counts.
  induction steps using List.reverseRecOn with
  | nil => rfl
  | append_singleton steps last ih =>
    rw [build_concat, hstep, ih, List.filterMap_append, List.getLast?_append]
    cases hsaid : said? last <;> simp [hsaid]

theorem part_build_of_kept {α : Type} {part : Match → α}
    (hstep : ∀ m last, part (step m last) = part m) (id text : String) (steps : List MatchStep)
    : part (build id text steps) = part { id, text } := by
  have hsilent : steps.filterMap (fun _ => (none : Option α)) = [] :=
    List.filterMap_eq_nil_iff.mpr fun _ _ => rfl
  have hpart := @part_build α part (fun _ => none) hstep id text steps
  rwa [hsilent] at hpart

theorem get?_properties_step (m : Match) (last : MatchStep) (key : String) (value : PropertyValue)
    : (m.step last).properties.get? key = some value ↔
      last.Writes key value ∨
        (∀ value, ¬last.Writes key value) ∧ m.properties.get? key = some value := by
  simp only [MatchStep.writes_iff]
  cases last with
  | property key' value' =>
    rw [step, Properties.get?_insert]
    split
    . next hkey => simp [hkey]
    . next hkey => simp [hkey]
  | _ => simp [step]

theorem get?_properties_build_iff (id text : String) {steps : List MatchStep} {key : String}
    {value : PropertyValue}
    : (build id text steps).properties.get? key = some value ↔ LastWrite steps key value := by
  induction steps using List.reverseRecOn with
  | nil => simp [build, MatchStep.not_lastWrite_nil]
  | append_singleton steps last ih =>
    rw [build_concat, get?_properties_step, ih, MatchStep.lastWrite_concat_iff]

theorem builtFrom_build (id text : String) (steps : List MatchStep)
    : BuiltFrom id text steps (build id text steps) where
  id_eq := part_build_of_kept (fun _ last => by cases last <;> rfl) id text steps
  text_eq := part_build_of_kept (fun _ last => by cases last <;> rfl) id text steps
  icon_eq := part_build (fun _ last => by cases last <;> rfl) id text steps
  kind_eq := part_build (fun _ last => by cases last <;> rfl) id text steps
  relevance_eq := part_build (fun _ last => by cases last <;> rfl) id text steps
  ordered := Properties.pairwise_toList _
  mem_iff key value := by
    rw [Properties.mem_toList_iff, get?_properties_build_iff]
  subtext_iff text' := by
    rw [← get?_properties_build_iff id text]
    exact Properties.bind_get?_eq_some_iff PropertyValue.text?_eq_some_iff
  category_iff text' := by
    rw [← get?_properties_build_iff id text]
    exact Properties.bind_get?_eq_some_iff PropertyValue.text?_eq_some_iff
  multiline_iff := by
    rw [← get?_properties_build_iff id text, Properties.isMultiline, Option.getD_eq_iff]
    simp [PropertyKey.multiline, Properties.bind_get?_eq_some_iff PropertyValue.flag?_eq_some_iff]
  urls_eq := by
    refine ⟨_, ?_, rfl⟩
    intro urls
    rw [← get?_properties_build_iff id text]
    exact Properties.bind_get?_eq_some_iff PropertyValue.texts?_eq_some_iff
  actions_iff ids := by
    rw [← get?_properties_build_iff id text]
    exact Properties.bind_get?_eq_some_iff PropertyValue.texts?_eq_some_iff

end Match
end RunnerKit
