import Mathlib.Data.List.Induction
import RunnerKit.Proofs.Settings.Literals
import RunnerKit.Proofs.Settings.Load
/-!
This module contains what a setting is if a variable of the environment sets it. No file keeps the
variable from being what counts.
-/

namespace RunnerKit.Settings

namespace Field

def texts : List Field := [appName, authorName, authorEmail, outputFormat, template, binDir]

def variableName (field : Field) : String :=
  "DBUSRUNNER_" ++ String.ofList (field.sectionName.toList.map Char.toUpper) ++ "__" ++
    String.ofList (field.name.toList.map Char.toUpper)

theorem keyOfVariable?_variableName (field : Field)
    : keyOfVariable? field.variableName = some field.key := by
  cases field <;> decide

theorem ofString_key (field : Field)
    : Key.ofString field.key = ⟨field.sectionName, [.entry field.name]⟩ := by
  cases field <;> decide

def Meets (field : Field) (key : String) : Prop :=
  (Key.ofString key).root = field.sectionName ∧
    ∀ other steps, (Key.ofString key).steps = .entry other :: steps → other = field.name

theorem meets_key (field : Field) : field.Meets field.key := by
  rw [Meets, ofString_key]
  refine ⟨rfl, ?_⟩
  intro other steps hsteps
  cases hsteps
  rfl

end Field

structure SetTo (field : Field) (v : Value) (settings changed : Entries) : Prop where
  elsewhere : ∀ heading, heading ≠ field.sectionName →
    changed.lookup heading = settings.lookup heading
  there : ∃ members, changed.lookup field.sectionName = some (.table members) ∧
    (members.lookup field.name).map Value.reading = some v.reading ∧
    ∀ name, name ≠ field.name →
      members.lookup name = (settings.at field.sectionName).entries.lookup name

namespace SetTo

variable {field : Field} {v : Value} {settings changed : Entries}

theorem of_setEntry (field : Field) (v : Value) (settings : Entries)
    : SetTo field v settings (settings.setEntry field.key v) := by
  rw [Entries.setEntry, field.ofString_key]
  constructor
  . intro heading hheading
    rw [Entries.lookup_put, if_neg hheading]
  . rw [Entries.lookup_put, if_pos rfl]
    refine ⟨_, rfl, ?_, ?_⟩
    . rw [Entries.lookup_put, if_pos rfl, Option.map_some, Value.update, Value.reading_overlay]
    . intro name hname
      rw [Entries.lookup_put, if_neg hname]

theorem setEntry (h : SetTo field v settings changed) {key : String} (hkey : ¬field.Meets key)
    (w : Value) : SetTo field v (settings.setEntry key w) (changed.setEntry key w) := by
  obtain ⟨members, htable, hreading, hmembers⟩ := h.there
  rw [Entries.setEntry, Entries.setEntry]
  by_cases hroot : (Key.ofString key).root = field.sectionName
  . simp only [Field.Meets, hroot, true_and, not_forall, exists_prop] at hkey
    obtain ⟨other, steps, hsteps, hother⟩ := hkey
    -- The key leads into another member of the section, which is the same in both.
    have hat : (changed.at field.sectionName).entries = members := by
      rw [Entries.at, htable]
      rfl
    have hbase : Entries.at members other = (settings.at field.sectionName).entries.at other := by
      rw [Entries.at, hmembers other hother]
      rfl
    rw [hroot, hsteps, Value.update, Value.update, hat, hbase]
    constructor
    . intro heading hheading
      rw [Entries.lookup_put, if_neg hheading, Entries.lookup_put, if_neg hheading,
        h.elsewhere heading hheading]
    . rw [Entries.lookup_put, if_pos rfl, Entries.at_put, if_pos rfl]
      refine ⟨_, rfl, ?_, ?_⟩
      . rw [Entries.lookup_put, if_neg (Ne.symm hother), hreading]
      . intro name hname
        rw [Value.entries, Entries.lookup_put, Entries.lookup_put, hmembers name hname]
  . have hat : changed.at (Key.ofString key).root = settings.at (Key.ofString key).root := by
      rw [Entries.at, h.elsewhere _ hroot, Entries.at]
    rw [hat]
    constructor
    . intro heading hheading
      rw [Entries.lookup_put, Entries.lookup_put, h.elsewhere heading hheading]
    . rw [Entries.lookup_put, if_neg (Ne.symm hroot), Entries.at_put, if_neg (Ne.symm hroot)]
      exact h.there

theorem setAll (h : SetTo field v settings changed) {layer : Entries}
    (hlayer : ∀ entry ∈ layer, ¬field.Meets entry.1)
    : SetTo field v (settings.setAll layer) (changed.setAll layer) := by
  induction layer generalizing settings changed with
  | nil => exact h
  | cons entry layer ih =>
    rw [List.forall_mem_cons] at hlayer
    exact ih (h.setEntry hlayer.1 entry.2) hlayer.2

end SetTo

inductive Inserted (entry : String × Value) : Entries → Entries → Prop where
  | here (layer : Entries) : Inserted entry layer (entry :: layer)
  | later {layer more : Entries} (first : String × Value) (h : Inserted entry layer more)
    : Inserted entry (first :: layer) (first :: more)

namespace Inserted

variable {key : String} {v : Value} {layer more : Entries}

theorem put (h : Inserted (key, v) layer more) {other : String} (hother : other ≠ key) (w : Value)
    : Inserted (key, v) (layer.put other w) (more.put other w) := by
  induction h with
  | here layer =>
    rw [Entries.put, if_neg hother.symm]
    exact .here _
  | later first h ih =>
    obtain ⟨name, old⟩ := first
    rw [Entries.put, Entries.put]
    split
    . exact .later _ h
    . exact .later _ ih

theorem put_self (hkey : ∀ entry ∈ layer, entry.1 ≠ key) : Inserted (key, v) layer (layer.put key v) := by
  induction layer with
  | nil => exact .here []
  | cons entry layer ih =>
    obtain ⟨name, old⟩ := entry
    rw [List.forall_mem_cons] at hkey
    rw [Entries.put, if_neg hkey.1]
    exact .later _ (ih hkey.2)

theorem setAll {field : Field} (h : Inserted (field.key, v) layer more)
    (hlayer : ∀ entry ∈ layer, ¬field.Meets entry.1) (settings : Entries)
    : SetTo field v (settings.setAll layer) (settings.setAll more) := by
  induction h generalizing settings with
  | here layer => exact (SetTo.of_setEntry field v settings).setAll hlayer
  | later first h ih =>
    rw [List.forall_mem_cons] at hlayer
    exact ih hlayer.2 _

end Inserted

section

variable {env before after : Environment}

theorem ofEnvironment_concat_of_none {name : String} (h : keyOfVariable? name = none)
    (env : Environment) (text : String)
    : ofEnvironment (env ++ [(name, text)]) = ofEnvironment env := by
  simp [ofEnvironment, h]

theorem ofEnvironment_concat_of_some {name key : String} (h : keyOfVariable? name = some key)
    (env : Environment) (text : String)
    : ofEnvironment (env ++ [(name, text)]) = (ofEnvironment env).put key (valueOfText text) := by
  simp [ofEnvironment, h]

theorem exists_variable_of_mem_ofEnvironment {entry : String × Value} (h : entry ∈ ofEnvironment env)
    : ∃ setter ∈ env, keyOfVariable? setter.1 = some entry.1 := by
  induction env using List.reverseRecOn with
  | nil => cases h
  | append_singleton env last ih =>
    obtain ⟨name, text⟩ := last
    have hlater (h : entry ∈ ofEnvironment env)
        : ∃ setter ∈ env ++ [(name, text)], keyOfVariable? setter.1 = some entry.1 := by
      obtain ⟨setter, hsetter, hkey⟩ := ih h
      exact ⟨setter, List.mem_append_left _ hsetter, hkey⟩
    cases hname : keyOfVariable? name with
    | none =>
      rw [ofEnvironment_concat_of_none hname] at h
      exact hlater h
    | some key =>
      rw [ofEnvironment_concat_of_some hname] at h
      cases Entries.mem_put h with
      | inl hentry =>
        subst hentry
        exact ⟨(name, text), by simp, hname⟩
      | inr h => exact hlater h

def Field.MetBy (field : Field) (name : String) : Prop :=
  ∃ key, keyOfVariable? name = some key ∧ field.Meets key

theorem Inserted.ofEnvironment {field : Field}
    (hothers : ∀ other ∈ before ++ after, ¬field.MetBy other.1) (text : String)
    : Inserted (field.key, valueOfText text) (ofEnvironment (before ++ after))
        (ofEnvironment (before ++ (field.variableName, text) :: after)) := by
  induction after using List.reverseRecOn with
  | nil =>
    rw [ofEnvironment_concat_of_some field.keyOfVariable?_variableName, List.append_nil]
    -- No other variable has this key, so the layer has no entry that would be replaced.
    apply Inserted.put_self
    intro entry hentry heq
    obtain ⟨setter, hsetter, hkey⟩ := exists_variable_of_mem_ofEnvironment hentry
    apply hothers setter (List.mem_append_left _ hsetter)
    exact ⟨_, hkey, by rw [heq]; exact field.meets_key⟩
  | append_singleton after last ih =>
    obtain ⟨name, value⟩ := last
    rw [← List.append_assoc] at hothers
    have hlater := ih fun other hother => hothers other (List.mem_append_left _ hother)
    rw [← List.append_assoc, ← List.cons_append, ← List.append_assoc]
    cases hname : keyOfVariable? name with
    | none =>
      rw [ofEnvironment_concat_of_none hname, ofEnvironment_concat_of_none hname]
      exact hlater
    | some key =>
      rw [ofEnvironment_concat_of_some hname, ofEnvironment_concat_of_some hname]
      apply hlater.put
      rintro rfl
      exact hothers (name, value) (by simp) ⟨_, hname, field.meets_key⟩

end

namespace SetTo

variable {field other : Field} {v : Value} {settings changed : Entries}
  (h : SetTo field v settings changed)
include h

theorem readIn_self : field.readIn changed = field.read v := by
  obtain ⟨members, htable, hreading, _⟩ := h.there
  rw [Option.map_eq_some_iff] at hreading
  obtain ⟨w, hw, hreading⟩ := hreading
  rw [Field.readIn, Field.find?, htable]
  simp only [hw, Option.bind_some, Option.elim_some]
  exact field.read_eq_of_reading_eq hreading

theorem readIn_elsewhere (hother : other.sectionName ≠ field.sectionName)
    : other.readIn changed = other.readIn settings := by
  rw [Field.readIn, Field.readIn, Field.find?, Field.find?, h.elsewhere _ hother]

theorem readIn_beside (hsection : other.sectionName = field.sectionName)
    (hname : other.name ≠ field.name)
    : other.readIn changed = other.readIn settings ∨
      other.readIn changed = some (({} : Settings).value other) := by
  -- If the section was no table, it becomes one that has no other members, so the defaults count.
  obtain ⟨members, htable, _, hmembers⟩ := h.there
  have hmember := hmembers other.name hname
  rw [Field.readIn, Field.find?, hsection, htable, Field.readIn, Field.find?, hsection]
  simp only [hmember, Entries.at]
  cases settings.lookup field.sectionName with
  | none => exact Or.inr rfl
  | some value =>
    cases value with
    | table => exact Or.inl rfl
    | _ => exact Or.inr rfl

theorem readIn_of_ne (hother : other ≠ field)
    : other.readIn changed = other.readIn settings ∨
      other.sectionName = field.sectionName ∧
        other.readIn changed = some (({} : Settings).value other) := by
  by_cases hsection : other.sectionName = field.sectionName
  . have hname : other.name ≠ field.name := by
      revert hother hsection
      cases field <;> cases other <;> decide
    exact (h.readIn_beside hsection hname).imp_right (And.intro hsection)
  . exact Or.inl (h.readIn_elsewhere hsection)

theorem exists_ofEntries?_eq_some {s : Settings} (hsettings : ofEntries? settings = some s)
    (hv : (field.read v).isSome)
    : ∃ s', ofEntries? changed = some s' ∧ field.read v = some (s'.value field) ∧
        ∀ other, other ≠ field → s'.value other = s.value other ∨
          other.sectionName = field.sectionName ∧ s'.value other = ({} : Settings).value other := by
  rw [ofEntries?_eq_some_iff] at hsettings
  have hall (other : Field) : (other.readIn changed).isSome := by
    by_cases hother : other = field
    . rw [hother, h.readIn_self]
      exact hv
    . cases h.readIn_of_ne hother with
      | inl hsame => rw [hsame, hsettings other, Option.isSome_some]
      | inr hdefault => rw [hdefault.2, Option.isSome_some]
  obtain ⟨s', hs'⟩ := Settings.exists_ofEntries?_eq_some hall
  refine ⟨s', hs', ?_, ?_⟩
  . rw [ofEntries?_eq_some_iff] at hs'
    rw [← h.readIn_self, hs' field]
  . intro other hother
    rw [ofEntries?_eq_some_iff] at hs'
    have hreadIn := h.readIn_of_ne hother
    rwa [hs' other, hsettings other, Option.some.injEq, Option.some.injEq] at hreadIn

end SetTo

end RunnerKit.Settings
