import Mathlib.Algebra.Group.Nat.Defs
import Mathlib.Data.List.Forall2
import Mathlib.Data.String.Basic
import RunnerKit.Error
/-!
This module contains what makes a text the name of an application. Such a name is an identifier, and
so the bus accepts everything that is called after it.
-/

namespace RunnerKit

def IsLetter (c : Char) : Prop := 'A' ≤ c ∧ c ≤ 'Z' ∨ 'a' ≤ c ∧ c ≤ 'z'

def IsDigit (c : Char) : Prop := '0' ≤ c ∧ c ≤ '9'

def IsWord (c : Char) : Prop := IsLetter c ∨ IsDigit c ∨ c = '_'

def IsSameLetter (c d : Char) : Prop :=
  c = d ∨ IsLetter c ∧ IsLetter d ∧ (c.toNat + 32 = d.toNat ∨ d.toNat + 32 = c.toNat)

def IsIdentifier (text : String) : Prop :=
  ∃ first rest, text.toList = first :: rest ∧ (IsLetter first ∨ first = '_') ∧ ∀ c ∈ rest, IsWord c

namespace Bus

structure IsName (text : String) : Prop where
  length_le : text.utf8ByteSize ≤ 255
  elements : ∃ elements : List String, text = ".".intercalate elements ∧ 2 ≤ elements.length ∧
    ∀ element ∈ elements, element ≠ "" ∧ (∀ c ∈ element.toList.head?, ¬IsDigit c) ∧
      ∀ c ∈ element.toList, IsWord c ∨ c = '-'

def IsPath (text : String) : Prop :=
  ∃ elements : List String, text = "/" ++ "/".intercalate elements ∧ elements ≠ [] ∧
    ∀ element ∈ elements, element ≠ "" ∧ ∀ c ∈ element.toList, IsWord c

end Bus

section

variable {c d : Char}

theorem isLetter_iff : IsLetter c ↔
    65 ≤ c.toNat ∧ c.toNat ≤ 90 ∨ 97 ≤ c.toNat ∧ c.toNat ≤ 122 := Iff.rfl

theorem isDigit_iff : IsDigit c ↔ 48 ≤ c.toNat ∧ c.toNat ≤ 57 := Iff.rfl

theorem isAlpha_eq_true_iff : c.isAlpha = true ↔ IsLetter c := by
  have hupper : c.isUpper = true ↔ 'A' ≤ c ∧ c ≤ 'Z' := decide_eq_true_iff
  have hlower : c.isLower = true ↔ 'a' ≤ c ∧ c ≤ 'z' :=
    Bool.and_eq_true_iff.trans (and_congr decide_eq_true_iff decide_eq_true_iff)
  exact Bool.or_eq_true_iff.trans (or_congr hupper hlower)

theorem isDigit_eq_true_iff : c.isDigit = true ↔ IsDigit c :=
  Bool.and_eq_true_iff.trans (and_congr decide_eq_true_iff decide_eq_true_iff)

theorem toNat_toLower (c : Char)
    : c.toLower.toNat = if 65 ≤ c.toNat ∧ c.toNat ≤ 90 then c.toNat + 32 else c.toNat := by
  unfold Char.toLower
  split
  . next h =>
    have hupper : 65 ≤ c.toNat ∧ c.toNat ≤ 90 := h
    have hval : (c.val + 32).toNat = (c.toNat + 32) % 2 ^ 32 := UInt32.toNat_add c.val 32
    rw [if_pos hupper]
    apply hval.trans
    omega
  . next h =>
    have hother : ¬(65 ≤ c.toNat ∧ c.toNat ≤ 90) := h
    rw [if_neg hother]

theorem isLetter_toLower : IsLetter c.toLower ↔ IsLetter c := by
  simp only [isLetter_iff, toNat_toLower]
  split <;> omega

theorem toLower_of_not_isLetter (h : ¬IsLetter c) : c.toLower = c := by
  rw [isLetter_iff] at h
  rw [← Char.toNat_inj, toNat_toLower]
  apply if_neg
  omega

theorem toLower_toLower (c : Char) : c.toLower.toLower = c.toLower := by
  rw [← Char.toNat_inj, toNat_toLower]
  apply if_neg
  rw [toNat_toLower]
  split <;> omega

theorem toLower_eq_iff : c.toLower = d.toLower ↔ IsSameLetter c d := by
  simp only [IsSameLetter, ← Char.toNat_inj, isLetter_iff, toNat_toLower]
  split <;> split <;> omega

theorem isWord_toLower (h : IsWord c) : IsWord c.toLower := by
  by_cases hletter : IsLetter c
  . left
    rw [isLetter_toLower]
    exact hletter
  . rw [toLower_of_not_isLetter hletter]
    exact h

theorem utf8Size_toLower (c : Char) : c.toLower.utf8Size = c.utf8Size := by
  by_cases h : IsLetter c
  . have hone {c : Char} (h : IsLetter c) : c.utf8Size = 1 := by
      rw [isLetter_iff] at h
      have hval : c.toNat ≤ 127 := by omega
      exact Char.utf8Size_eq_one_iff.mpr hval
    rw [hone h, hone (isLetter_toLower.mpr h)]
  . rw [toLower_of_not_isLetter h]

end

theorem asciiLower_asciiLower (s : String) : asciiLower (asciiLower s) = asciiLower s := by
  unfold asciiLower
  rw [String.toList_ofList, List.map_map]
  congr 1
  apply List.map_congr_left
  intro c _
  apply toLower_toLower

theorem asciiLower_eq_iff {s t : String}
    : asciiLower s = asciiLower t ↔ List.Forall₂ IsSameLetter s.toList t.toList := by
  unfold asciiLower
  rw [String.ofList_inj, ← List.forall₂_eq_eq_eq, List.forall₂_map_left_iff,
    List.forall₂_map_right_iff]
  simp only [toLower_eq_iff]

theorem utf8ByteSize_asciiLower (s : String) : (asciiLower s).utf8ByteSize = s.utf8ByteSize := by
  unfold asciiLower
  conv => rhs; rw [← String.ofList_toList (s := s)]
  rw [String.utf8ByteSize_ofList, String.utf8ByteSize_ofList]
  induction s.toList with
  | nil => rfl
  | cons c cs ih => rw [List.map_cons, String.utf8Len, String.utf8Len, ih, utf8Size_toLower]

theorem IsIdentifier.ne_empty {text : String} (h : IsIdentifier text) : text ≠ "" := by
  obtain ⟨first, rest, htext, -, -⟩ := h
  rintro rfl
  simp at htext

theorem IsIdentifier.isWord {text : String} (h : IsIdentifier text)
    : ∀ c ∈ text.toList, IsWord c := by
  obtain ⟨first, rest, htext, hfirst, hrest⟩ := h
  rw [htext, List.forall_mem_cons]
  refine ⟨?_, hrest⟩
  cases hfirst with
  | inl hletter => exact Or.inl hletter
  | inr heq => exact Or.inr (Or.inr heq)

theorem IsIdentifier.not_isDigit_head {text : String} (h : IsIdentifier text)
    : ∀ c ∈ text.toList.head?, ¬IsDigit c := by
  obtain ⟨first, rest, htext, hfirst, -⟩ := h
  rw [htext]
  intro c hc hdigit
  cases hc
  rw [isDigit_iff] at hdigit
  cases hfirst with
  | inl hletter =>
    rw [isLetter_iff] at hletter
    omega
  | inr heq =>
    rw [heq] at hdigit
    revert hdigit
    decide

theorem IsIdentifier.asciiLower {text : String} (h : IsIdentifier text)
    : IsIdentifier (asciiLower text) := by
  obtain ⟨first, rest, htext, hfirst, hrest⟩ := h
  refine ⟨first.toLower, rest.map Char.toLower, ?_, ?_, ?_⟩
  . rw [RunnerKit.asciiLower, String.toList_ofList, htext, List.map_cons]
  . rw [isLetter_toLower]
    apply hfirst.imp_right
    rintro rfl
    rfl
  . intro c hc
    obtain ⟨d, hd, rfl⟩ := List.mem_map.mp hc
    exact isWord_toLower (hrest d hd)

namespace AppName

theorem isStart_iff {c : Char} : isStart c = true ↔ IsLetter c ∨ c = '_' := by
  rw [isStart, Bool.or_eq_true, isAlpha_eq_true_iff, beq_iff_eq]

theorem isPart_iff {c : Char} : isPart c = true ↔ IsWord c := by
  rw [isPart, Char.isAlphanum, Bool.or_eq_true, Bool.or_eq_true, isAlpha_eq_true_iff,
    isDigit_eq_true_iff, beq_iff_eq, or_assoc]
  rfl

/--
What becomes of a text that is to be the name of an application. Its faults are looked for in the
order of the cases.
-/
inductive Naming (text : String) : Except Violation AppName → Prop where
  | empty (htext : text = "")
    : Naming text (.error (.invalidAppName text "name cannot be empty"))
  | badStart {first : Char} {rest : List Char} (htext : text.toList = first :: rest)
      (hfirst : ¬(IsLetter first ∨ first = '_'))
    : Naming text (.error (.invalidAppName text "must start with an ASCII letter or '_'"))
  | badCharacter {first bad : Char} {front back : List Char}
      (htext : text.toList = first :: (front ++ bad :: back))
      (hfirst : IsLetter first ∨ first = '_') (hfront : ∀ c ∈ front, IsWord c) (hbad : ¬IsWord bad)
    : Naming text
        (.error (.invalidAppName text ("character '" ++ bad.toString ++ "' is not allowed")))
  | tooLong (htext : IsIdentifier text) (hlength : 247 < text.utf8ByteSize)
    : Naming text (.error (.invalidAppName text "name is too long for a bus name"))
  | named {app : AppName} (happ : app.text = text) (htext : IsIdentifier text)
      (hlength : text.utf8ByteSize ≤ 247)
    : Naming text (.ok app)

theorem ofString_eq_error {text : String} {fault : NameFault} (h : fault? text = some fault)
    : ofString text = .error fault := by
  unfold ofString
  split
  . next hnone =>
    rw [hnone] at h
    cases h
  . next fault' hsome =>
    rw [hsome] at h
    cases h
    rfl

theorem ofString_text (app : AppName) : ofString app.text = .ok app := by
  unfold ofString
  split
  . rfl
  . next fault hsome =>
    rw [app.faultless] at hsome
    cases hsome

theorem fault?_cons {text : String} {first : Char} {rest : List Char}
    (htext : text.toList = first :: rest) (hfirst : IsLetter first ∨ first = '_')
    : fault? text =
      match rest.find? (!isPart ·) with
      | some c => some (.badCharacter c)
      | none => if 247 < text.utf8ByteSize then some .tooLong else none := by
  have hlength : maxBusNameBytes < busNamePrefix.utf8ByteSize + text.utf8ByteSize
      ↔ 247 < text.utf8ByteSize := by
    have hfront : busNamePrefix.utf8ByteSize = 8 := rfl
    rw [hfront, maxBusNameBytes]
    omega
  unfold fault?
  rw [htext]
  dsimp only
  cases rest.find? (!isPart ·) with
  | some c => simp only [isStart_iff.mpr hfirst, Bool.not_true, Bool.false_eq_true, if_false]
  | none => simp only [isStart_iff.mpr hfirst, Bool.not_true, Bool.false_eq_true, if_false, hlength]

theorem fault?_of_isIdentifier {text : String} (htext : IsIdentifier text)
    : fault? text = if 247 < text.utf8ByteSize then some .tooLong else none := by
  obtain ⟨first, rest, htext, hfirst, hrest⟩ := htext
  have hfind : rest.find? (!isPart ·) = none := by
    rw [List.find?_eq_none]
    intro c hc
    simpa using isPart_iff.mpr (hrest c hc)
  rw [fault?_cons htext hfirst, hfind]

theorem Naming.ofString_eq {text : String} {result : Except Violation AppName}
    (h : Naming text result) : (ofString text).mapError (·.violation text) = result := by
  cases h with
  | empty htext =>
    rw [htext]
    rfl
  | badStart htext hfirst =>
    have hfault : fault? text = some .badStart := by
      rw [← isStart_iff, Bool.not_eq_true] at hfirst
      unfold fault?
      rw [htext]
      simp only [hfirst, Bool.not_false, if_true]
    rw [ofString_eq_error hfault]
    rfl
  | @badCharacter first bad front back htext hfirst hfront hbad =>
    have hfind : (front ++ bad :: back).find? (!isPart ·) = some bad := by
      rw [List.find?_eq_some_iff_append]
      refine ⟨?_, front, back, rfl, ?_⟩
      . rw [← isPart_iff, Bool.not_eq_true] at hbad
        rw [hbad]
        rfl
      . intro c hc
        rw [isPart_iff.mpr (hfront c hc)]
        rfl
    have hfault : fault? text = some (.badCharacter bad) := by
      rw [fault?_cons htext hfirst, hfind]
    rw [ofString_eq_error hfault]
    rfl
  | tooLong htext hlength =>
    have hfault : fault? text = some .tooLong := by
      rw [fault?_of_isIdentifier htext, if_pos hlength]
    rw [ofString_eq_error hfault]
    rfl
  | named happ htext hlength =>
    rw [← happ, ofString_text]
    rfl

theorem exists_naming (text : String) : ∃ result, Naming text result := by
  -- The cases are split in the order in which the faults are looked for.
  cases htext : text.toList with
  | nil =>
    have hempty : text = "" := by simpa using htext
    exact ⟨_, .empty hempty⟩
  | cons first rest =>
    by_cases hfirst : IsLetter first ∨ first = '_'
    . cases hfind : rest.find? (!isPart ·) with
      | some bad =>
        rw [List.find?_eq_some_iff_append] at hfind
        obtain ⟨hbad, front, back, rfl, hfront⟩ := hfind
        have hword : ¬IsWord bad := by
          rw [← isPart_iff]
          simpa using hbad
        refine ⟨_, .badCharacter htext hfirst ?_ hword⟩
        intro c hc
        rw [← isPart_iff]
        simpa using hfront c hc
      | none =>
        rw [List.find?_eq_none] at hfind
        have hidentifier : IsIdentifier text := by
          refine ⟨first, rest, htext, hfirst, ?_⟩
          intro c hc
          rw [← isPart_iff]
          simpa using hfind c hc
        by_cases hlength : 247 < text.utf8ByteSize
        . exact ⟨_, .tooLong hidentifier hlength⟩
        . have hfault : fault? text = none := by
            rw [fault?_of_isIdentifier hidentifier, if_neg hlength]
          exact ⟨_, @Naming.named text ⟨text, hfault⟩ rfl hidentifier (Nat.not_lt.mp hlength)⟩
    . exact ⟨_, .badStart htext hfirst⟩

theorem isIdentifier_text (app : AppName) : IsIdentifier app.text := by
  obtain ⟨result, hnaming⟩ := exists_naming app.text
  have hok := hnaming.ofString_eq
  rw [ofString_text] at hok
  subst hok
  cases hnaming with
  | named _ htext _ => exact htext

theorem utf8ByteSize_text_le (app : AppName) : app.text.utf8ByteSize ≤ 247 := by
  have hfault := app.faultless
  rw [fault?_of_isIdentifier app.isIdentifier_text] at hfault
  by_contra hlength
  rw [if_pos (Nat.not_le.mp hlength)] at hfault
  cases hfault

theorem isIdentifier_lowercase (app : AppName) : IsIdentifier app.lowercase :=
  app.isIdentifier_text.asciiLower

def lower (app : AppName) : AppName where
  text := app.lowercase
  faultless := by
    have hlength := app.utf8ByteSize_text_le
    rw [fault?_of_isIdentifier app.isIdentifier_lowercase, lowercase, utf8ByteSize_asciiLower]
    exact if_neg (Nat.not_lt.mpr hlength)

theorem lowercase_lower (app : AppName) : app.lower.lowercase = app.lowercase :=
  asciiLower_asciiLower app.text

end AppName

namespace ServiceIdentity

open Bus

theorem isName_busName (s : ServiceIdentity) : IsName s.busName where
  length_le := by
    have hfront : busNamePrefix.utf8ByteSize = 8 := rfl
    have hlength := s.app.utf8ByteSize_text_le
    rw [busName, String.utf8ByteSize_append, hfront, AppName.lowercase, utf8ByteSize_asciiLower]
    omega
  elements := by
    have helements : ∀ element ∈ ["org", "kde", s.app.lowercase], IsIdentifier element := by
      simp only [List.forall_mem_cons, List.not_mem_nil, false_imp_iff, implies_true, and_true]
      refine ⟨?_, ?_, s.app.isIdentifier_lowercase⟩
      . exact ⟨'o', ['r', 'g'], rfl, by simp [IsLetter], by simp [IsWord, IsLetter]⟩
      . exact ⟨'k', ['d', 'e'], rfl, by simp [IsLetter], by simp [IsWord, IsLetter]⟩
    refine ⟨["org", "kde", s.app.lowercase], ?_, Nat.le_succ 2, ?_⟩
    . rw [← String.toList_inj]
      simp [busName, busNamePrefix]
    . intro element helement
      have hname := helements element helement
      refine ⟨hname.ne_empty, hname.not_isDigit_head, ?_⟩
      intro c hc
      exact Or.inl (hname.isWord c hc)

theorem isPath_of_isIdentifier {name : String} (h : IsIdentifier name) : IsPath ("/" ++ name) := by
  refine ⟨[name], rfl, List.cons_ne_nil name [], ?_⟩
  rw [List.forall_mem_singleton]
  exact ⟨h.ne_empty, h.isWord⟩

theorem isPath_objectPath (s : ServiceIdentity) : IsPath s.objectPath := by
  obtain ⟨app, style⟩ := s
  cases style with
  | default =>
    have hrunner : IsIdentifier "runner" :=
      ⟨'r', ['u', 'n', 'n', 'e', 'r'], rfl, by simp [IsLetter], by simp [IsWord, IsLetter]⟩
    exact isPath_of_isIdentifier hrunner
  | appScoped => exact isPath_of_isIdentifier app.isIdentifier_lowercase

theorem busName_eq_iff {s s' : ServiceIdentity}
    : s.busName = s'.busName ↔ List.Forall₂ IsSameLetter s.app.text.toList s'.app.text.toList := by
  rw [busName, busName, String.append_right_inj, ← asciiLower_eq_iff]
  rfl

end ServiceIdentity

structure AppName.Reachable (app : AppName) : Prop where
  busName_eq : ∀ style, ServiceIdentity.busName ⟨app, style⟩ = "org.kde." ++ app.lowercase
  isName : ∀ style, Bus.IsName (ServiceIdentity.busName ⟨app, style⟩)
  isPath : ∀ style, Bus.IsPath (ServiceIdentity.objectPath ⟨app, style⟩)
  lower : ∃ lower, AppName.ofString app.lowercase = .ok lower ∧ lower.text = app.lowercase ∧
    ∀ style, ServiceIdentity.busName ⟨lower, style⟩ = ServiceIdentity.busName ⟨app, style⟩ ∧
      ServiceIdentity.objectPath ⟨lower, style⟩ = ServiceIdentity.objectPath ⟨app, style⟩
  shared_iff : ∀ (other : AppName) (style style' : PathStyle),
    ServiceIdentity.busName ⟨app, style⟩ = ServiceIdentity.busName ⟨other, style'⟩
      ↔
    List.Forall₂ IsSameLetter app.text.toList other.text.toList

theorem AppName.naming_and_reachable
    : (∀ (text : String) (result : Except Violation AppName),
        (ofString text).mapError (·.violation text) = result ↔ Naming text result) ∧
      ∀ app : AppName, app.Reachable := by
  constructor
  . intro text result
    constructor
    . intro hresult
      obtain ⟨result', hnaming⟩ := exists_naming text
      rw [← hresult, hnaming.ofString_eq]
      exact hnaming
    . intro hnaming
      exact hnaming.ofString_eq
  . intro app
    constructor
    . intro style
      rfl
    . intro style
      apply ServiceIdentity.isName_busName
    . intro style
      apply ServiceIdentity.isPath_objectPath
    . refine ⟨app.lower, ofString_text app.lower, rfl, ?_⟩
      intro style
      constructor
      . rw [ServiceIdentity.busName, lowercase_lower]
        rfl
      . cases style with
        | default => rfl
        | appScoped =>
          rw [ServiceIdentity.objectPath, lowercase_lower]
          rfl
    . intro other style style'
      apply ServiceIdentity.busName_eq_iff

end RunnerKit
