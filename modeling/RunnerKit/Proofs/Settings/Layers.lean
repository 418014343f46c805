import Mathlib.Data.List.Nodup
import RunnerKit.Settings.Load
/-!
This module contains which layer decides a setting. Of all layers that set it the last one counts,
and if there is none the default does.
-/

namespace RunnerKit.Settings

theorem lookup_cons_ite {α β : Type} [BEq α] [LawfulBEq α] [DecidableEq α] (key other : α)
    (value : β) (entries : List (α × β))
    : ((key, value) :: entries).lookup other =
      if other = key then some value else entries.lookup other := by
  rw [List.lookup_cons]
  by_cases h : other = key
  . simp [h]
  . rw [beq_false_of_ne h, if_neg h]

namespace Entries

theorem lookup_put (entries : Entries) (key : String) (value : Value) (other : String)
    : (entries.put key value).lookup other =
      if other = key then some value else entries.lookup other := by
  induction entries with
  | nil => exact lookup_cons_ite key other value []
  | cons entry entries ih =>
    obtain ⟨first, old⟩ := entry
    rw [put, lookup_cons_ite]
    split
    . next hfirst =>
      rw [hfirst, lookup_cons_ite]
      split <;> rfl
    . next hfirst =>
      rw [lookup_cons_ite, ih]
      by_cases h : other = first
      . rw [if_pos h, if_neg (by rw [h]; exact hfirst), if_pos h]
      . rw [if_neg h, if_neg h]

theorem at_put (entries : Entries) (key : String) (value : Value) (other : String)
    : (entries.put key value).at other = if other = key then value else entries.at other := by
  rw [Entries.at, lookup_put]
  split <;> rfl

theorem mem_put {entries : Entries} {key : String} {v : Value} {entry : String × Value}
    (h : entry ∈ entries.put key v) : entry = (key, v) ∨ entry ∈ entries := by
  induction entries with
  | nil => exact Or.inl (List.mem_singleton.mp h)
  | cons first entries ih =>
    obtain ⟨name, old⟩ := first
    rw [put] at h
    split at h
    . cases h with
      | head => exact Or.inl rfl
      | tail _ h => exact Or.inr (List.mem_cons_of_mem _ h)
    . cases h with
      | head => exact Or.inr List.mem_cons_self
      | tail _ h => exact (ih h).imp_right (List.mem_cons_of_mem _)

theorem nodup_keys_put {entries : Entries} (h : (entries.map Prod.fst).Nodup) {key : String}
    {v : Value} : ((entries.put key v).map Prod.fst).Nodup := by
  induction entries with
  | nil => exact List.nodup_singleton key
  | cons entry entries ih =>
    obtain ⟨other, old⟩ := entry
    rw [List.map_cons, List.nodup_cons] at h
    rw [put]
    split
    . next hother =>
      rw [List.map_cons, List.nodup_cons, ← hother]
      exact h
    . next hother =>
      rw [List.map_cons, List.nodup_cons]
      refine ⟨fun hmem => ?_, ih h.2⟩
      obtain ⟨entry, hentry, rfl⟩ := List.mem_map.mp hmem
      cases mem_put hentry with
      | inl hnew => exact hother (congrArg Prod.fst hnew)
      | inr hold => exact h.1 (List.mem_map.mpr ⟨entry, hold, rfl⟩)

end Entries

namespace Value

def reading (v : Value) : Option String × Option Bool := (v.text?, v.flag?)

@[simp]
theorem reading_overlay (base v : Value) : (base.overlay v).reading = v.reading := by
  cases v <;> rfl

theorem reading_lookup_overlayAll (base members : Entries) (name : String)
    : ((overlayAll base members).lookup name).map reading =
      ((members.reverse.lookup name).or (base.lookup name)).map reading := by
  -- What is left of a member that is itself a table does not matter here, since no setting is one.
  induction members generalizing base with
  | nil => rfl
  | cons member members ih =>
    obtain ⟨key, value⟩ := member
    rw [overlayAll, ih, List.reverse_cons, List.lookup_append]
    cases members.reverse.lookup name with
    | some last => rfl
    | none =>
      simp only [Option.none_or, Entries.lookup_put, lookup_cons_ite]
      split
      . simp
      . rfl

end Value

def sectionNames : List String := Field.all.map Field.sectionName

theorem Field.sectionName_mem (field : Field) : field.sectionName ∈ sectionNames := by
  cases field <;> decide

def membersSet? (steps : List Step) (value : Value) : Option Entries :=
  match steps, value with
  | [], .table members => some members
  | [.entry name], value => some [(name, value)]
  | _, _ => none

theorem update_eq_overlay {steps : List Step} {value : Value} {members : Entries}
    (h : membersSet? steps value = some members) (base : Value)
    : base.update (·.overlay value) steps = base.overlay (.table members) := by
  unfold membersSet? at h
  split at h
  . cases h
    rfl
  . cases h
    rfl
  . cases h

abbrev Assignments := List ((String × String) × Value)

def assignments? (entry : String × Value) : Option Assignments :=
  let key := Key.ofString entry.1
  if key.root ∈ sectionNames then
    (membersSet? key.steps entry.2).map fun members =>
      members.map fun member => ((key.root, member.1), member.2)
  else some []

/--
Whether a layer takes every section for a table. It may have anything else beside the sections.
-/
def Sectioned (layer : Entries) : Prop := ∀ entry ∈ layer, (assignments? entry).isSome

instance (layer : Entries) : Decidable (Sectioned layer) :=
  inferInstanceAs (Decidable (∀ entry ∈ layer, (assignments? entry).isSome))

def assignments (layer : Entries) : Assignments :=
  layer.flatMap fun entry => (assignments? entry).getD []

structure Merged (assigned : Assignments) (settings : Entries) : Prop where
  isTable : ∀ heading ∈ sectionNames, ∀ value, settings.lookup heading = some value →
    ∃ members, value = .table members
  reading_eq : ∀ heading ∈ sectionNames, ∀ name,
    ((settings.at heading).entries.lookup name).map Value.reading =
      (assigned.reverse.lookup (heading, name)).map Value.reading

theorem lookup_map_section (root : String) (members : Entries) (heading name : String)
    : (members.map fun member => ((root, member.1), member.2)).lookup (heading, name) =
      if heading = root then members.lookup name else none := by
  induction members with
  | nil => simp
  | cons member members ih =>
    obtain ⟨key, value⟩ := member
    rw [List.map_cons, lookup_cons_ite, lookup_cons_ite, ih]
    by_cases h : heading = root
    . simp [h]
    . simp [h]

namespace Merged

variable {assigned : Assignments} {settings : Entries}

theorem nil : Merged [] [] where
  isTable := by simp
  reading_eq := by simp [Entries.at, Value.entries]

theorem put_of_notMem (h : Merged assigned settings) {root : String} (hroot : root ∉ sectionNames)
    (value : Value) : Merged assigned (settings.put root value) where
  isTable heading hheading := by
    rw [Entries.lookup_put, if_neg (ne_of_mem_of_not_mem hheading hroot)]
    exact h.isTable heading hheading
  reading_eq heading hheading name := by
    rw [Entries.at_put, if_neg (ne_of_mem_of_not_mem hheading hroot)]
    exact h.reading_eq heading hheading name

theorem put_overlay (h : Merged assigned settings) (root : String) (members : Entries)
    : Merged (assigned ++ members.map fun member => ((root, member.1), member.2))
        (settings.put root ((settings.at root).overlay (.table members))) where
  isTable heading hheading value hvalue := by
    rw [Entries.lookup_put] at hvalue
    split at hvalue
    . cases hvalue
      exact ⟨_, rfl⟩
    . exact h.isTable heading hheading value hvalue
  reading_eq heading hheading name := by
    have hbase := h.reading_eq heading hheading name
    rw [Entries.at_put, List.reverse_append, List.lookup_append, ← List.map_reverse,
      lookup_map_section]
    split
    . next hroot =>
      subst hroot
      rw [Value.overlay, Value.entries, Value.reading_lookup_overlayAll]
      cases members.reverse.lookup name with
      | some value => rfl
      | none => exact hbase
    . exact hbase

theorem setEntry (h : Merged assigned settings) {key : String} {value : Value} {more : Assignments}
    (hentry : assignments? (key, value) = some more)
    : Merged (assigned ++ more) (settings.setEntry key value) := by
  simp only [assignments?] at hentry
  simp only [Entries.setEntry]
  split at hentry
  . rw [Option.map_eq_some_iff] at hentry
    obtain ⟨members, hmembers, hmore⟩ := hentry
    rw [update_eq_overlay hmembers, ← hmore]
    exact h.put_overlay _ members
  . next hroot =>
    cases hentry
    rw [List.append_nil]
    exact h.put_of_notMem hroot _

theorem setAll (h : Merged assigned settings) {layer : Entries} (hlayer : Sectioned layer)
    : Merged (assigned ++ assignments layer) (settings.setAll layer) := by
  induction layer generalizing assigned settings with
  | nil =>
    rw [assignments, List.flatMap_nil, List.append_nil]
    exact h
  | cons entry layer ih =>
    obtain ⟨more, hmore⟩ := Option.isSome_iff_exists.mp (hlayer entry List.mem_cons_self)
    rw [assignments, List.flatMap_cons, hmore, Option.getD_some, ← List.append_assoc]
    apply ih (h.setEntry hmore)
    exact fun entry hentry => hlayer entry (List.mem_cons_of_mem _ hentry)

theorem foldl_setAll (h : Merged assigned settings) {layers : List Entries}
    (hlayers : ∀ layer ∈ layers, Sectioned layer)
    : Merged (assigned ++ layers.flatMap assignments) (layers.foldl Entries.setAll settings) := by
  induction layers generalizing assigned settings with
  | nil =>
    rw [List.flatMap_nil, List.append_nil]
    exact h
  | cons layer layers ih =>
    rw [List.flatMap_cons, ← List.append_assoc]
    apply ih (h.setAll (hlayers layer List.mem_cons_self))
    exact fun layer hlayer => hlayers layer (List.mem_cons_of_mem _ hlayer)

end Merged

def Field.setIn? (field : Field) (layer : Entries) : Option Value :=
  (assignments layer).reverse.lookup (field.sectionName, field.name)

theorem lookup_flatMap_assignments (field : Field) (layers : List Entries)
    : (layers.flatMap assignments).reverse.lookup (field.sectionName, field.name) =
      layers.reverse.findSome? field.setIn? := by
  induction layers with
  | nil => rfl
  | cons layer layers ih =>
    rw [List.flatMap_cons, List.reverse_append, List.lookup_append, ih, List.reverse_cons,
      List.findSome?_append, List.findSome?_singleton]
    rfl

def Field.read (field : Field) (v : Value) : Option Value :=
  match field with
  | .scopedPath | .noColour => v.flag?.map .flag
  | _ => v.text?.map .text

theorem Field.read_eq_of_reading_eq (field : Field) {v w : Value} (h : v.reading = w.reading)
    : field.read v = field.read w := by
  simp only [Value.reading, Prod.mk.injEq] at h
  cases field <;> simp only [read, h]

theorem Merged.find?_eq {assigned : Assignments} {settings : Entries} (h : Merged assigned settings)
    (field : Field)
    : field.find? settings = some ((settings.at field.sectionName).entries.lookup field.name) := by
  rw [Field.find?, Entries.at]
  cases hvalue : settings.lookup field.sectionName with
  | none => rfl
  | some value =>
    obtain ⟨members, rfl⟩ := h.isTable _ field.sectionName_mem value hvalue
    rfl

def Field.readIn (field : Field) (entries : Entries) : Option Value :=
  (field.find? entries).bind (·.elim (some (({} : Settings).value field)) field.read)

theorem Field.readIn_eq_map {α : Type} {field : Field} {read : Value → Option α} {standard : α}
    {wrap : α → Value} (hread : ∀ v, field.read v = (read v).map wrap)
    (hstandard : ({} : Settings).value field = wrap standard) (entries : Entries)
    : field.readIn entries = (field.readAs read standard entries).map wrap := by
  rw [readIn, readAs, hstandard]
  cases field.find? entries with
  | none => rfl
  | some value? =>
    cases value? with
    | none => rfl
    | some v => exact hread v

theorem Field.readIn_eq_some_iff {α : Type} {field : Field} {read : Value → Option α}
    {standard : α} {wrap : α → Value} (hwrap : wrap.Injective)
    (hread : ∀ v, field.read v = (read v).map wrap)
    (hstandard : ({} : Settings).value field = wrap standard) (entries : Entries) (a : α)
    : field.readIn entries = some (wrap a) ↔ field.readAs read standard entries = some a := by
  rw [readIn_eq_map hread hstandard, ← Option.map_some, (Option.map_injective hwrap).eq_iff]

theorem ofEntries?_eq_some_iff (entries : Entries) (s : Settings)
    : ofEntries? entries = some s ↔ ∀ field : Field, field.readIn entries = some (s.value field) := by
  have htext {field : Field} {standard : String} (hread : ∀ v, field.read v = v.text?.map .text)
      (hstandard : ({} : Settings).value field = .text standard) (a : String)
      : field.readIn entries = some (.text a) ↔ field.readAs Value.text? standard entries = some a :=
    Field.readIn_eq_some_iff (fun _ _ h => by cases h; rfl) hread hstandard entries a
  have hflag {field : Field} {standard : Bool} (hread : ∀ v, field.read v = v.flag?.map .flag)
      (hstandard : ({} : Settings).value field = .flag standard) (a : Bool)
      : field.readIn entries = some (.flag a) ↔ field.readAs Value.flag? standard entries = some a :=
    Field.readIn_eq_some_iff (fun _ _ h => by cases h; rfl) hread hstandard entries a
  constructor
  . intro h
    simp only [ofEntries?, Option.bind_eq_bind, Option.bind_eq_some_iff] at h
    obtain ⟨_, happName, _, hscopedPath, _, hauthorName, _, hauthorEmail, _, hnoColour, _,
      houtputFormat, _, htemplate, _, hbinDir, heq⟩ := h
    cases heq
    intro field
    cases field with
    | appName => exact (htext (fun _ => rfl) rfl _).mpr happName
    | scopedPath => exact (hflag (fun _ => rfl) rfl _).mpr hscopedPath
    | authorName => exact (htext (fun _ => rfl) rfl _).mpr hauthorName
    | authorEmail => exact (htext (fun _ => rfl) rfl _).mpr hauthorEmail
    | noColour => exact (hflag (fun _ => rfl) rfl _).mpr hnoColour
    | outputFormat => exact (htext (fun _ => rfl) rfl _).mpr houtputFormat
    | template => exact (htext (fun _ => rfl) rfl _).mpr htemplate
    | binDir => exact (htext (fun _ => rfl) rfl _).mpr hbinDir
  . intro h
    have happName := (htext (fun _ => rfl) rfl _).mp (h .appName)
    have hscopedPath := (hflag (fun _ => rfl) rfl _).mp (h .scopedPath)
    have hauthorName := (htext (fun _ => rfl) rfl _).mp (h .authorName)
    have hauthorEmail := (htext (fun _ => rfl) rfl _).mp (h .authorEmail)
    have hnoColour := (hflag (fun _ => rfl) rfl _).mp (h .noColour)
    have houtputFormat := (htext (fun _ => rfl) rfl _).mp (h .outputFormat)
    have htemplate := (htext (fun _ => rfl) rfl _).mp (h .template)
    have hbinDir := (htext (fun _ => rfl) rfl _).mp (h .binDir)
    rw [ofEntries?, happName, hscopedPath, hauthorName, hauthorEmail, hnoColour, houtputFormat,
      htemplate, hbinDir]
    rfl

theorem exists_ofEntries?_eq_some {entries : Entries}
    (h : ∀ field : Field, (field.readIn entries).isSome) : ∃ s, ofEntries? entries = some s := by
  have htext {field : Field} {standard : String} (hread : ∀ v, field.read v = v.text?.map .text)
      (hstandard : ({} : Settings).value field = .text standard)
      : ∃ a, field.readAs Value.text? standard entries = some a := by
    have hfield := h field
    rw [Field.readIn_eq_map hread hstandard, Option.isSome_map] at hfield
    exact Option.isSome_iff_exists.mp hfield
  have hflag {field : Field} {standard : Bool} (hread : ∀ v, field.read v = v.flag?.map .flag)
      (hstandard : ({} : Settings).value field = .flag standard)
      : ∃ a, field.readAs Value.flag? standard entries = some a := by
    have hfield := h field
    rw [Field.readIn_eq_map hread hstandard, Option.isSome_map] at hfield
    exact Option.isSome_iff_exists.mp hfield
  obtain ⟨_, happName⟩ := @htext .appName _ (fun _ => rfl) rfl
  obtain ⟨_, hscopedPath⟩ := @hflag .scopedPath _ (fun _ => rfl) rfl
  obtain ⟨_, hauthorName⟩ := @htext .authorName _ (fun _ => rfl) rfl
  obtain ⟨_, hauthorEmail⟩ := @htext .authorEmail _ (fun _ => rfl) rfl
  obtain ⟨_, hnoColour⟩ := @hflag .noColour _ (fun _ => rfl) rfl
  obtain ⟨_, houtputFormat⟩ := @htext .outputFormat _ (fun _ => rfl) rfl
  obtain ⟨_, htemplate⟩ := @htext .template _ (fun _ => rfl) rfl
  obtain ⟨_, hbinDir⟩ := @htext .binDir _ (fun _ => rfl) rfl
  rw [ofEntries?, happName, hscopedPath, hauthorName, hauthorEmail, hnoColour, houtputFormat,
    htemplate, hbinDir]
  exact ⟨_, rfl⟩

theorem sectioned_defaults : Sectioned (toEntries {}) := by
  decide +kernel

theorem setAll_defaults : Entries.setAll [] (toEntries {}) = toEntries {} := by
  rfl

theorem Field.setIn?_defaults (field : Field)
    : field.setIn? (toEntries {}) = some (({} : Settings).value field) := by
  cases field <;> rfl

theorem Field.readIn_foldl_setAll (field : Field) {layers : List Entries}
    (hlayers : ∀ layer ∈ layers, Sectioned layer)
    : field.readIn (layers.foldl Entries.setAll (toEntries {})) =
      field.read ((layers.reverse.findSome? field.setIn?).getD (({} : Settings).value field)) := by
  have hmerged := (Merged.nil.setAll sectioned_defaults).foldl_setAll hlayers
  rw [setAll_defaults, List.nil_append] at hmerged
  have hreading := hmerged.reading_eq _ field.sectionName_mem field.name
  have hdefault : (assignments (toEntries {})).reverse.lookup (field.sectionName, field.name) =
      some (({} : Settings).value field) := field.setIn?_defaults
  rw [List.reverse_append, List.lookup_append, lookup_flatMap_assignments, hdefault,
    Option.or_some, Option.map_some, Option.map_eq_some_iff] at hreading
  obtain ⟨v, hv, hreading⟩ := hreading
  rw [readIn, hmerged.find?_eq, Option.bind_some, hv]
  exact field.read_eq_of_reading_eq hreading

theorem ofLayers_eq_ok_iff {backend : Backend} {layers : List Entries}
    (hlayers : ∀ layer ∈ layers, Sectioned layer) (s : Settings)
    : ofLayers backend layers = .ok s ↔ ∀ field : Field,
        field.read ((layers.reverse.findSome? field.setIn?).getD (({} : Settings).value field)) =
          some (s.value field) := by
  have hentries := ofEntries?_eq_some_iff (layers.foldl Entries.setAll (toEntries {})) s
  simp only [Field.readIn_foldl_setAll _ hlayers] at hentries
  rw [← hentries, ofLayers]
  cases ofEntries? (layers.foldl Entries.setAll (toEntries {})) <;> simp

end RunnerKit.Settings
