import RunnerKit.Proofs.Path.Components
import RunnerKit.Proofs.Text.Order
/-!
This module contains the names that a relative path goes through, which decide where it leads below
another path.
-/

namespace RunnerKit
namespace Path

def names (p : Path) : List Name := (splitSlashes p.bytes).filter (!isIgnored ·)

def Terse (p : Path) : Prop := ∀ name ∈ splitSlashes p.bytes, isIgnored name = false

theorem componentOfName_injective : Function.Injective componentOfName := by
  intro name other h
  unfold componentOfName at h
  split at h
  . next hname =>
    split at h
    . next hother => rw [hname, hother]
    . simp at h
  . split at h
    . simp at h
    . simpa using h

theorem componentsOfNames_splitSlashes_eq_iff {p q : Path}
    : componentsOfNames (splitSlashes p.bytes) = componentsOfNames (splitSlashes q.bytes)
        ↔
      p.names = q.names := by
  apply List.map_inj_right
  intro name other h
  exact componentOfName_injective h

theorem samePlace_join_iff {root p q : Path} (hroot : root.isEmpty = false)
    (hp : p.isAbsolute = false) (hq : q.isAbsolute = false)
    : (root.join p).SamePlace (root.join q) ↔ p.names = q.names := by
  rw [SamePlace, components_join hroot hp, components_join hroot hq, List.append_cancel_left_eq,
    componentsOfNames_splitSlashes_eq_iff]

theorem joinSlashes_cons_cons (b : UInt8) (name : Name) (names : List Name)
    : joinSlashes ((b :: name) :: names) = b :: joinSlashes (name :: names) := by
  cases names <;> rfl

theorem joinSlashes_splitSlashes (bytes : List UInt8) : joinSlashes (splitSlashes bytes) = bytes := by
  induction bytes with
  | nil => rfl
  | cons b bs ih =>
    obtain ⟨name, names, hsplit⟩ := List.exists_cons_of_ne_nil (splitSlashes_ne_nil bs)
    by_cases hb : b = slash
    . rw [hb, splitSlashes_cons_slash, hsplit, joinSlashes, ← hsplit, ih]
      . rfl
      . simp
    . rw [splitSlashes_cons_of_ne hb hsplit, joinSlashes_cons_cons, ← hsplit, ih]

namespace Terse

variable {p q : Path}

theorem names_eq (h : p.Terse) : p.names = splitSlashes p.bytes := by
  rw [names, List.filter_eq_self]
  intro name hname
  simp [h name hname]

theorem eq_of_names_eq (hp : p.Terse) (hq : q.Terse) (h : p.names = q.names) : p = q := by
  rw [hp.names_eq, hq.names_eq] at h
  obtain ⟨bytes⟩ := p
  obtain ⟨other⟩ := q
  rw [← joinSlashes_splitSlashes bytes, ← joinSlashes_splitSlashes other, h]

theorem components_eq (h : p.Terse) : p.components = componentsOfNames (splitSlashes p.bytes) := by
  obtain ⟨name, names, hsplit⟩ := List.exists_cons_of_ne_nil (splitSlashes_ne_nil p.bytes)
  have hname : isIgnored name = false := h name (by simp [hsplit])
  rw [Path.components_eq, hsplit, leading_of_not_isIgnored hname, List.nil_append]

theorem eq_of_samePlace_join {root : Path} (hp : p.Terse) (hq : q.Terse)
    (habsolute : p.isAbsolute = false) (habsolute' : q.isAbsolute = false)
    (h : (root.join p).SamePlace (root.join q)) : p = q := by
  apply hp.eq_of_names_eq hq
  cases hroot : root.isEmpty with
  | false => exact (samePlace_join_iff hroot habsolute habsolute').mp h
  | true =>
    rw [join_of_isEmpty hroot, join_of_isEmpty hroot, SamePlace, hp.components_eq,
      hq.components_eq] at h
    exact componentsOfNames_splitSlashes_eq_iff.mp h

end Terse

def IsFileName (text : String) : Prop := '/' ∉ text.toList ∧ ∃ c ∈ text.toList, c ≠ '.'

theorem eq_slash_of_mem_utf8EncodeChar {c : Char} (h : slash ∈ String.utf8EncodeChar c)
    : c = '/' := by
  rw [← Char.toNat_inj]
  exact @toNat_eq_of_mem_utf8EncodeChar 47 c (by decide) h

theorem decodeLossy_replicate_dot (n : Nat)
    : decodeLossy (List.replicate n dot) = List.replicate n '.' := by
  induction n with
  | zero => simp [decodeLossy]
  | succ n ih =>
    rw [List.replicate_succ, decodeLossy_one (by decide), ih]
    rfl

namespace IsFileName

variable {text : String} (h : IsFileName text)
include h

theorem slash_notMem : slash ∉ utf8Bytes text := by
  rw [utf8Bytes_eq_flatMap, List.mem_flatMap]
  rintro ⟨c, hc, hslash⟩
  rw [eq_slash_of_mem_utf8EncodeChar hslash] at hc
  exact h.1 hc

theorem utf8Bytes_ne_dots (n : Nat) : utf8Bytes text ≠ List.replicate n dot := by
  obtain ⟨_, c, hc, hdot⟩ := h
  intro heq
  rw [← decodeLossy_utf8Bytes, heq, decodeLossy_replicate_dot] at hc
  exact hdot (List.eq_of_mem_replicate hc)

theorem isIgnored_eq_false : isIgnored (utf8Bytes text) = false := by
  have hnil : utf8Bytes text ≠ [] := h.utf8Bytes_ne_dots 0
  have hdot : utf8Bytes text ≠ [dot] := h.utf8Bytes_ne_dots 1
  simp [isIgnored, hnil, hdot]

theorem isEmpty_eq_false : (ofString text).isEmpty = false := by
  have hnil : utf8Bytes text ≠ [] := h.utf8Bytes_ne_dots 0
  rw [isEmpty, List.isEmpty_eq_false_iff]
  exact hnil

theorem splitSlashes_eq : splitSlashes (utf8Bytes text) = [utf8Bytes text] :=
  splitSlashes_of_slash_notMem h.slash_notMem

theorem componentsOfNames_eq
    : componentsOfNames (splitSlashes (utf8Bytes text)) = [.normal (utf8Bytes text)] := by
  have hparent : utf8Bytes text ≠ [dot, dot] := h.utf8Bytes_ne_dots 2
  rw [h.splitSlashes_eq, componentsOfNames_of_not_isIgnored h.isIgnored_eq_false, componentOfName,
    if_neg hparent]

theorem components_ofString : (ofString text).components = [.normal (utf8Bytes text)] := by
  have hsplit : splitSlashes (ofString text).bytes = [utf8Bytes text] := h.splitSlashes_eq
  rw [components_eq_of_splitSlashes hsplit, leading_of_not_isIgnored h.isIgnored_eq_false,
    List.nil_append, ← h.splitSlashes_eq]
  exact h.componentsOfNames_eq

theorem append {back : String} (hback : '/' ∉ back.toList) : IsFileName (text ++ back) := by
  obtain ⟨hslash, c, hc, hdot⟩ := h
  rw [IsFileName, String.toList_append, List.mem_append, not_or]
  exact ⟨⟨hslash, hback⟩, c, List.mem_append_left _ hc, hdot⟩

theorem append_left {front : String} (hfront : '/' ∉ front.toList) : IsFileName (front ++ text) := by
  obtain ⟨hslash, c, hc, hdot⟩ := h
  rw [IsFileName, String.toList_append, List.mem_append, not_or]
  exact ⟨⟨hfront, hslash⟩, c, List.mem_append_right _ hc, hdot⟩

theorem join_ofString (other : String) (hother : (ofString other).isAbsolute = false)
    : (ofString text).join (ofString other) = ofString (text ++ "/" ++ other) := by
  have hslash : utf8Bytes "/" = [slash] := by
    rw [utf8Bytes_eq_flatMap]
    decide
  have hlast : (ofString text).bytes.getLast? ≠ some slash := by
    intro hlast
    exact h.slash_notMem (List.mem_of_getLast? hlast)
  rw [join, hother, if_neg Bool.false_ne_true, if_neg (by simp [h.isEmpty_eq_false, hlast])]
  simp only [ofString, utf8Bytes_append, hslash, List.append_assoc, List.singleton_append]

end IsFileName

end Path
end RunnerKit
