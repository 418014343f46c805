import RunnerKit.Proofs.Settings.Toml.Keys
import RunnerKit.Proofs.Settings.Variables
/-!
This module contains the settings that are loaded from a file that the user names and from the
environment, where both give settings no more than values of their kinds. Each setting is then
decided by itself, and nothing but that file and the environment has a say in it.
-/

namespace RunnerKit.Settings

/-! What a layer sets is found in it by name if it has no key twice. -/

theorem lookup_eq_none_of_notMem {α : Type} {key : String} {entries : List (String × α)}
    (h : key ∉ entries.map Prod.fst) : entries.lookup key = none := by
  rw [List.lookup_eq_none_iff]
  intro entry hentry
  rw [bne_iff_ne]
  rintro rfl
  exact h (List.mem_map_of_mem hentry)

theorem lookup_reverse {α : Type} {entries : List (String × α)}
    (hkeys : (entries.map Prod.fst).Nodup) (key : String)
    : entries.reverse.lookup key = entries.lookup key := by
  induction entries with
  | nil => rfl
  | cons entry entries ih =>
    obtain ⟨other, a⟩ := entry
    rw [List.map_cons, List.nodup_cons] at hkeys
    rw [List.reverse_cons, List.lookup_append, ih hkeys.2, lookup_cons_ite, lookup_cons_ite]
    split
    . next hkey => rw [hkey, lookup_eq_none_of_notMem hkeys.1, Option.none_or]
    . rw [List.lookup_nil, Option.or_none]

theorem Field.setIn?_cons (field : Field) (entry : String × Value) (layer : Entries)
    : field.setIn? (entry :: layer) =
      (field.setIn? layer).or
        (((assignments? entry).getD []).reverse.lookup (field.sectionName, field.name)) := by
  rw [setIn?, setIn?, assignments, List.flatMap_cons, List.reverse_append, List.lookup_append]
  rfl

/-! Documents -/

theorem ofString_sectionName {heading : String} (h : heading ∈ sectionNames)
    : Key.ofString heading = ⟨heading, []⟩ := by
  revert heading
  decide

def Field.inDocument? (field : Field) (document : Entries) : Option Value :=
  (document.at field.sectionName).entries.lookup field.name

inductive Heading : String × Value → Prop where
  | table {heading : String} (hheading : heading ∈ sectionNames) (members : Entries)
    : Heading (heading, .table members)
  | other {key : String} (hkey : (Key.ofString key).root ∉ sectionNames) (value : Value)
    : Heading (key, value)

theorem Heading.assignments?_isSome {entry : String × Value} (h : Heading entry)
    : (assignments? entry).isSome := by
  cases h with
  | table hheading members => simp [assignments?, ofString_sectionName hheading, hheading, membersSet?]
  | other hkey value => simp [assignments?, hkey]

theorem Heading.lookup_assignments? {entry : String × Value} (h : Heading entry)
    (htidy : entry.2.Tidy) (field : Field)
    : ((assignments? entry).getD []).reverse.lookup (field.sectionName, field.name) =
      if field.sectionName = entry.1 then entry.2.entries.lookup field.name else none := by
  cases h with
  | @table heading hheading members =>
    simp only [assignments?, ofString_sectionName hheading, hheading, if_true, membersSet?,
      Option.map_some, Option.getD_some, Value.entries]
    rw [← List.map_reverse, lookup_map_section, lookup_reverse htidy.nodup_keys]
  | @other key hkey value =>
    have hsection : field.sectionName ≠ key := by
      rintro rfl
      rw [ofString_sectionName field.sectionName_mem] at hkey
      exact hkey field.sectionName_mem
    simp only [assignments?, hkey, if_false, Option.getD_some, List.reverse_nil, List.lookup_nil,
      hsection]

theorem Field.setIn?_eq_inDocument? (field : Field) {document : Entries}
    (htidy : (Value.table document).Tidy) (hheadings : ∀ entry ∈ document, Heading entry)
    : field.setIn? document = field.inDocument? document := by
  have hkeys := htidy.nodup_keys
  have hvalues := fun entry hentry => @Value.Tidy.of_mem _ htidy entry hentry
  clear htidy
  induction document with
  | nil => rfl
  | cons entry document ih =>
    rw [List.map_cons, List.nodup_cons] at hkeys
    rw [List.forall_mem_cons] at hheadings hvalues
    obtain ⟨key, value⟩ := entry
    rw [field.setIn?_cons, ih hheadings.2 hkeys.2 hvalues.2,
      hheadings.1.lookup_assignments? hvalues.1, inDocument?, inDocument?, Entries.at, Entries.at,
      lookup_cons_ite]
    split
    . next hsection =>
      rw [hsection, lookup_eq_none_of_notMem hkeys.1]
      rfl
    . rw [Option.or_none]

/-! Environments -/

def IsLiteral (text : String) : Prop :=
  (∃ b : Bool, asciiLower text = toString b) ∨ (readInteger? text.toList).isSome ∨
    (readNumber? text.toList).isSome

instance (text : String) : Decidable (IsLiteral text) :=
  inferInstanceAs (Decidable ((∃ b : Bool, asciiLower text = toString b) ∨ _ ∨ _))

def Field.Fits (field : Field) (text : String) : Prop :=
  match field with
  | .scopedPath | .noColour => text = "true" ∨ text = "false"
  | _ => ¬IsLiteral text

def Field.ofText (field : Field) (text : String) : Value :=
  match field with
  | .scopedPath | .noColour => .flag (text == "true")
  | _ => .text text

/--
What an environment gives for a setting. Of several variables that set it the last one counts.
-/
def Field.inEnvironment? (field : Field) (env : Environment) : Option Value :=
  (env.reverse.find? fun entry => keyOfVariable? entry.1 = some field.key).map fun entry =>
    field.ofText entry.2

theorem valueOfText_of_not_isLiteral {text : String} (h : ¬IsLiteral text)
    : valueOfText text = .text text := by
  simp only [IsLiteral, not_or, not_exists, Option.not_isSome_iff_eq_none] at h
  obtain ⟨hflag, hinteger, hnumber⟩ := h
  rw [valueOfText_of_ne hflag, readInt64?, hinteger, hnumber]
  rfl

theorem Field.Fits.valueOfText_eq {field : Field} {text : String} (h : field.Fits text)
    : valueOfText text = field.ofText text := by
  cases field with
  | scopedPath | noColour => obtain rfl | rfl := h <;> rfl
  | _ => exact valueOfText_of_not_isLiteral h

theorem Field.key_injective : Function.Injective Field.key := by
  intro field other h
  cases field <;> cases other <;> first | rfl | exact absurd h (by decide)

theorem Field.assignments?_key (field : Field) (v : Value)
    : assignments? (field.key, v) = some [((field.sectionName, field.name), v)] := by
  simp only [assignments?, field.ofString_key, field.sectionName_mem, if_true, membersSet?,
    Option.map_some, List.map_cons, List.map_nil]

theorem Field.lookup_assignments?_key (field other : Field) (v : Value)
    : ((assignments? (other.key, v)).getD []).reverse.lookup (field.sectionName, field.name) =
      if field.key = other.key then some v else none := by
  rw [other.assignments?_key, Option.getD_some, List.reverse_singleton, lookup_cons_ite,
    List.lookup_nil]
  congr 1
  rw [eq_iff_iff, key_injective.eq_iff]
  cases field <;> cases other <;> decide

theorem Field.setIn?_eq_lookup (field : Field) {layer : Entries}
    (hkeys : (layer.map Prod.fst).Nodup)
    (hfields : ∀ entry ∈ layer, ∃ other : Field, entry.1 = other.key)
    : field.setIn? layer = layer.lookup field.key := by
  induction layer with
  | nil => rfl
  | cons entry layer ih =>
    rw [List.map_cons, List.nodup_cons] at hkeys
    rw [List.forall_mem_cons] at hfields
    obtain ⟨key, v⟩ := entry
    obtain ⟨⟨other, rfl⟩, hfields⟩ := hfields
    rw [field.setIn?_cons, ih hkeys.2 hfields, field.lookup_assignments?_key, lookup_cons_ite]
    split
    . next hkey => rw [hkey, lookup_eq_none_of_notMem hkeys.1, Option.none_or]
    . rw [Option.or_none]

def Fitting (env : Environment) : Prop :=
  ∀ entry ∈ env, ∀ key, keyOfVariable? entry.1 = some key →
    ∃ field : Field, key = field.key ∧ field.Fits entry.2

theorem nodup_keys_ofEnvironment (env : Environment)
    : ((ofEnvironment env).map Prod.fst).Nodup := by
  induction env using List.reverseRecOn with
  | nil => exact List.nodup_nil
  | append_singleton env last ih =>
    obtain ⟨name, text⟩ := last
    cases hname : keyOfVariable? name with
    | none => rwa [ofEnvironment_concat_of_none hname]
    | some key =>
      rw [ofEnvironment_concat_of_some hname]
      exact Entries.nodup_keys_put ih

namespace Fitting

variable {env : Environment} (h : Fitting env)
include h

theorem exists_field {entry : String × Value} (hentry : entry ∈ ofEnvironment env)
    : ∃ field : Field, entry.1 = field.key := by
  obtain ⟨setter, hsetter, hkey⟩ := exists_variable_of_mem_ofEnvironment hentry
  obtain ⟨field, hfield, _⟩ := h setter hsetter entry.1 hkey
  exact ⟨field, hfield⟩

theorem sectioned : Sectioned (ofEnvironment env) := by
  intro entry hentry
  obtain ⟨field, hfield⟩ := h.exists_field hentry
  obtain ⟨key, v⟩ := entry
  obtain rfl : key = field.key := hfield
  rw [field.assignments?_key, Option.isSome_some]

theorem lookup_key (field : Field)
    : (ofEnvironment env).lookup field.key = field.inEnvironment? env := by
  induction env using List.reverseRecOn with
  | nil => rfl
  | append_singleton env last ih =>
    obtain ⟨name, text⟩ := last
    rw [Fitting, List.forall_mem_append, List.forall_mem_singleton] at h
    have hbefore : (ofEnvironment env).lookup field.key = field.inEnvironment? env := ih h.1
    rw [Field.inEnvironment?, List.reverse_append, List.reverse_singleton, List.singleton_append,
      List.find?_cons]
    cases hname : keyOfVariable? name with
    | none =>
      rw [ofEnvironment_concat_of_none hname, hbefore]
      rfl
    | some key =>
      obtain ⟨other, rfl, hfits⟩ := h.2 key hname
      rw [ofEnvironment_concat_of_some hname, Entries.lookup_put, hbefore, hfits.valueOfText_eq]
      by_cases hkey : field.key = other.key
      . rw [if_pos hkey, Field.key_injective hkey, decide_eq_true rfl]
        rfl
      . rw [if_neg hkey, decide_eq_false (fun heq => hkey (Option.some.inj heq).symm)]
        rfl

theorem setIn?_eq (field : Field)
    : field.setIn? (ofEnvironment env) = field.inEnvironment? env := by
  rw [field.setIn?_eq_lookup (nodup_keys_ofEnvironment env) fun entry => h.exists_field,
    h.lookup_key]

end Fitting

theorem Field.read_of_inEnvironment? {env : Environment} {field : Field} {v : Value}
    (hv : field.inEnvironment? env = some v) : field.read v = some v := by
  obtain ⟨entry, _, rfl⟩ := Option.map_eq_some_iff.mp hv
  cases field <;> rfl

/-! Both together -/

def Field.Takes (field : Field) (v : Value) : Prop :=
  match field with
  | .scopedPath | .noColour => ∃ b, v = .flag b
  | _ => ∃ s, v = .text s

theorem Field.Takes.read_eq {field : Field} {v : Value} (h : field.Takes v)
    : field.read v = some v := by
  cases field <;> (obtain ⟨_, rfl⟩ := h; rfl)

structure Orderly (document : Entries) : Prop where
  headings : ∀ entry ∈ document, Heading entry
  takes : ∀ (field : Field) (v : Value), field.inDocument? document = some v → field.Takes v

theorem exists_ofLayers_eq_ok {document : Entries} (htidy : (Value.table document).Tidy)
    (hdocument : Orderly document) {env : Environment} (henv : Fitting env)
    : ∃ s, (∀ backend, ofLayers backend [document, ofEnvironment env] = .ok s) ∧
        ∀ field : Field, s.value field =
          ((field.inEnvironment? env).or (field.inDocument? document)).getD
            (({} : Settings).value field) := by
  have hlayers : ∀ layer ∈ [document, ofEnvironment env], Sectioned layer := by
    simp only [List.forall_mem_cons]
    exact ⟨fun entry hentry => (hdocument.headings entry hentry).assignments?_isSome,
      henv.sectioned, by simp⟩
  have hread (field : Field)
      : field.readIn ([document, ofEnvironment env].foldl Entries.setAll (toEntries {})) =
        some (((field.inEnvironment? env).or (field.inDocument? document)).getD
          (({} : Settings).value field)) := by
    have hlast : [document, ofEnvironment env].reverse.findSome? field.setIn? =
        (field.inEnvironment? env).or (field.inDocument? document) := by
      rw [← henv.setIn?_eq field, ← field.setIn?_eq_inDocument? htidy hdocument.headings]
      cases henv : field.setIn? (ofEnvironment env) <;>
        cases hdocument : field.setIn? document <;> simp [henv, hdocument]
    rw [field.readIn_foldl_setAll hlayers, hlast]
    cases hvariable : field.inEnvironment? env with
    | some v => exact field.read_of_inEnvironment? hvariable
    | none =>
      cases hvalue : field.inDocument? document with
      | some v => exact (hdocument.takes field v hvalue).read_eq
      | none => cases field <;> rfl
  obtain ⟨s, hs⟩ := exists_ofEntries?_eq_some fun field => by rw [hread field, Option.isSome_some]
  refine ⟨s, fun backend => by rw [ofLayers, hs], fun field => ?_⟩
  have hvalue := (ofEntries?_eq_some_iff _ s).mp hs field
  rw [hread field, Option.some.injEq] at hvalue
  exact hvalue.symm

theorem get?_key (s : Settings) (field : Field) : s.get? field.key = (s.value field).text? := by
  have hfind : Field.all.find? (·.key == field.key) = some field := by
    cases field <;> decide
  rw [get?, hfind, Option.map_some, shown]
  cases field <;> rfl

theorem get?_eq_none (s : Settings) {key : String} (h : ∀ field : Field, key ≠ field.key)
    : s.get? key = none := by
  rw [get?, Option.map_eq_none_iff, List.find?_eq_none]
  intro field _ hkey
  exact h field (beq_iff_eq.mp hkey).symm

theorem exists_load_named {path : Path} {text : String} {document : Entries} {env : Environment}
    (hformat : FileFormat.ofPath? path = some .toml)
    (hread : Toml.read? (withoutMark text) = some document) (hdocument : Orderly document)
    (henv : Fitting env)
    : ∃ s : Settings,
        (∀ (read? : Path → Option String) (home : Home) (backend : Backend),
          read? path = some text → load (m := Id) read? env home (some path) backend = .ok s) ∧
        (∀ field : Field, s.value field =
          ((field.inEnvironment? env).or (field.inDocument? document)).getD
            (({} : Settings).value field)) ∧
        (∀ field : Field, s.get? field.key = (s.value field).text?) ∧
        ∀ key, (∀ field : Field, key ≠ field.key) → s.get? key = none := by
  obtain ⟨s, hs, hvalue⟩ := exists_ofLayers_eq_ok (Toml.tidy_of_read? hread) hdocument henv
  refine ⟨s, fun read? home backend hpath => ?_, hvalue, s.get?_key, fun key => s.get?_eq_none⟩
  rw [load_named_eq_ofLayers (fileLayer_eq_ok hpath hformat hread), hs]

def projectPath : Path := .ofString "project.toml"

def projectText : String := "[author]\nname = \"Jane\"\n\n[output]\nno_color = true\n"

def projectVariables : Environment :=
  [("HOME", "/home/jane"), ("DBUSRUNNER_OUTPUT__NO_COLOR", "false"),
    ("DBUSRUNNER_TEMPLATES__DEFAULT", "runner-scoped")]

def projectDocument : Entries :=
  [("author", .table [("name", .text "Jane")]), ("output", .table [("no_color", .flag true)])]

theorem orderly_projectDocument : Orderly projectDocument where
  headings := by
    exact List.forall_mem_cons.mpr ⟨.table (by decide) _,
      List.forall_mem_singleton.mpr (.table (by decide) _)⟩
  takes field v hv := by
    cases field <;> cases hv
    . exact ⟨_, rfl⟩
    . exact ⟨_, rfl⟩

theorem map_keyOfVariable?_projectVariables
    : projectVariables.map (fun entry => keyOfVariable? entry.1) =
      [none, some Field.noColour.key, some Field.template.key] := by
  decide

theorem fitting_projectVariables : Fitting projectVariables := by
  have hkeys := map_keyOfVariable?_projectVariables
  have hscoped : ¬IsLiteral "runner-scoped" := by decide
  simp only [projectVariables, List.map_cons, List.cons.injEq] at hkeys
  simp only [Fitting, projectVariables, List.forall_mem_cons, hkeys]
  refine ⟨by simp, ?_, ?_, by simp⟩
  . rintro key ⟨⟩
    exact ⟨.noColour, rfl, Or.inr rfl⟩
  . rintro key ⟨⟩
    exact ⟨.template, rfl, hscoped⟩

theorem inEnvironment?_projectVariables (field : Field)
    : field.inEnvironment? projectVariables =
      if field = .noColour then some (.flag false)
      else if field = .template then some (.text "runner-scoped") else none := by
  have hkeys := map_keyOfVariable?_projectVariables
  simp only [projectVariables, List.map_cons, List.cons.injEq] at hkeys
  simp only [Field.inEnvironment?, projectVariables, List.reverse_cons, List.reverse_nil,
    List.nil_append, List.cons_append, List.find?_cons, hkeys, Option.some.injEq,
    Field.key_injective.eq_iff]
  cases field <;> rfl

theorem exists_load_named_project
    : FileFormat.ofPath? projectPath = some .toml ∧
        Toml.read? (withoutMark projectText) = some projectDocument ∧ Orderly projectDocument ∧
        Fitting projectVariables ∧ ∃ s : Settings,
          (∀ (read? : Path → Option String) (home : Home) (backend : Backend),
            read? projectPath = some projectText →
              load (m := Id) read? projectVariables home (some projectPath) backend = .ok s) ∧
          s.authorName = "Jane" ∧ s.noColour = false ∧ s.template = "runner-scoped" ∧
          s.get? "author.email" = some "you@example.org" ∧ s.get? "author" = none := by
  have hformat : FileFormat.ofPath? projectPath = some .toml := by decide +kernel
  have hread : Toml.read? (withoutMark projectText) = some projectDocument := by cbv
  obtain ⟨s, hload, hvalue, hkey, hother⟩ :=
    exists_load_named hformat hread orderly_projectDocument fitting_projectVariables
  simp only [inEnvironment?_projectVariables] at hvalue
  refine ⟨hformat, hread, orderly_projectDocument, fitting_projectVariables, s, hload, ?_, ?_, ?_, ?_, ?_⟩
  . exact Value.text.inj (hvalue .authorName)
  . exact Value.flag.inj (hvalue .noColour)
  . exact Value.text.inj (hvalue .template)
  . rw [← show Field.authorEmail.key = "author.email" by rfl, hkey, hvalue]
    rfl
  . exact hother "author" fun field => by cases field <;> decide

end RunnerKit.Settings
