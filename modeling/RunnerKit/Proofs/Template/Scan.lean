import RunnerKit.Proofs.Template.Slice
/-!
This module contains the proof that a text is scanned into the pieces that it is cut into.
-/

namespace RunnerKit

namespace Piece

theorem scan_plain_append (offset : Nat) {cs rest : List Char} (h : Plain cs)
    (hrest : ∀ tail, rest ≠ '{' :: tail)
    : scan offset (cs ++ rest) = cs.map literal ++ scan (offset + byteLength cs) rest := by
  induction cs generalizing offset with
  | nil => rfl
  | cons c cs ih =>
    rw [List.cons_append, scan]
    . rw [ih _ h.of_cons, byteLength, Nat.add_assoc]
      rfl
    . intro tail hc htail
      cases cs with
      | nil => exact hrest tail htail
      | cons d cs =>
        simp only [List.cons_append, List.cons.injEq] at htail
        have hopener : c :: d :: cs = [] ++ '%' :: '{' :: cs := by rw [hc, htail.1]; rfl
        exact h.ne_append_opener hopener

theorem scan_plain (offset : Nat) {cs : List Char} (h : Plain cs)
    : scan offset cs = cs.map literal := by
  have hscan := scan_plain_append offset h (List.cons_ne_nil '{' · |>.symm)
  rw [List.append_nil, scan, List.append_nil] at hscan
  exact hscan

theorem scan_unclosed (offset : Nat) {cs : List Char} (h : '}' ∉ cs)
    : scan offset ('%' :: '{' :: cs) = [unclosed offset] := by
  rw [scan]
  split
  . rfl
  . next hsplit =>
    rw [splitClosing_eq_none_iff.mpr h] at hsplit
    cases hsplit

theorem scan_slot (offset : Nat) {key rest : List Char} (h : '}' ∉ key)
    : scan offset ('%' :: '{' :: (key ++ '}' :: rest)) =
      slot key :: scan (offset + byteLength key + 3) rest := by
  have hkey : splitClosing (key ++ '}' :: rest) = some (key, rest) :=
    splitClosing_eq_some_iff.mpr ⟨rfl, h⟩
  rw [scan]
  split
  . next hsplit =>
    rw [hkey] at hsplit
    cases hsplit
  . next hsplit =>
    rw [hkey] at hsplit
    cases hsplit
    rfl

end Piece

namespace Cut

open Piece

def Slot.pieces (slot : Slot) : List Piece :=
  slot.literal.map Piece.literal ++ [Piece.slot slot.key]

def Ending.pieces (offset : Nat) : Ending → List Piece
  | .closed text _ => text.map literal
  | .unclosed text _ _ _ => text.map literal ++ [.unclosed (offset + byteLength text)]

theorem scan_slot_text_append (offset : Nat) (slot : Slot) (rest : List Char)
    : scan offset (slot.text ++ rest) =
      slot.pieces ++ scan (offset + byteLength slot.text) rest := by
  have hlength : offset + byteLength slot.literal + byteLength slot.key + 3 =
      offset + byteLength slot.text := by
    rw [slot.byteLength_text]
    omega
  rw [slot.text_append, scan_plain_append offset slot.plain (by simp), scan_slot _ slot.unbraced,
    Slot.pieces, List.append_assoc, hlength]
  rfl

theorem scan_ending_text (offset : Nat) (ending : Ending)
    : scan offset ending.text = ending.pieces offset := by
  cases ending with
  | closed _ plain => exact scan_plain offset plain
  | unclosed text rest plain unbraced =>
    rw [Ending.text, scan_plain_append offset plain (by simp), scan_unclosed _ unbraced]
    rfl

theorem scan_text (offset : Nat) (d : Cut)
    : scan offset d.text =
      d.slots.flatMap Slot.pieces
        ++ d.ending.pieces (offset + byteLength (d.slots.flatMap Slot.text)) := by
  obtain ⟨slots, ending⟩ := d
  induction slots generalizing offset with
  | nil => exact scan_ending_text offset ending
  | cons slot slots ih =>
    rw [text_cons, scan_slot_text_append, ih]
    simp [Nat.add_assoc]

end Cut
end RunnerKit
