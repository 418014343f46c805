import Mathlib.Data.String.Basic
import RunnerKit.Proofs.Template.Cut
/-!
This module contains the slices that a text is cut into, by the bytes that they start and stop at.
-/

namespace RunnerKit

namespace Piece

theorem byteLength_eq_utf8Len (cs : List Char) : byteLength cs = String.utf8Len cs := by
  induction cs with
  | nil => rfl
  | cons c cs ih => simp [byteLength, ih, Nat.add_comm]

@[simp]
theorem byteLength_append (cs ds : List Char)
    : byteLength (cs ++ ds) = byteLength cs + byteLength ds := by
  simp [byteLength_eq_utf8Len]

theorem isValid_append (before after : List Char)
    : (⟨byteLength before⟩ : String.Pos.Raw).IsValid (String.ofList (before ++ after)) := by
  rw [String.Pos.Raw.isValid_iff_exists_append]
  refine ⟨String.ofList before, String.ofList after, String.ofList_append, ?_⟩
  apply String.Pos.Raw.ext
  rw [byteLength_eq_utf8Len, String.byteIdx_rawEndPos, String.utf8ByteSize_ofList]

end Piece

namespace Cut

open Piece (byteLength)

theorem Slot.byteLength_text (slot : Slot)
    : byteLength slot.text = byteLength slot.literal + 2 + byteLength slot.key + 1 := by
  have hopener : '%'.utf8Size + '{'.utf8Size = 2 := rfl
  have hcloser : '}'.utf8Size = 1 := rfl
  simp only [text, Piece.byteLength_append, byteLength]
  omega

structure Slice where
  start : Nat
  stop : Nat
  text : List Char

structure Slice.LiesIn (slice : Slice) (source : String) : Prop where
  isValid_start : (⟨slice.start⟩ : String.Pos.Raw).IsValid source
  isValid_stop : (⟨slice.stop⟩ : String.Pos.Raw).IsValid source
  extract_eq : String.Pos.Raw.extract source ⟨slice.start⟩ ⟨slice.stop⟩ = String.ofList slice.text

theorem Slice.liesIn_append (before cs after : List Char)
    : (⟨byteLength before, byteLength before + byteLength cs, cs⟩ : Slice).LiesIn
        (String.ofList (before ++ cs ++ after)) where
  isValid_start := by
    rw [List.append_assoc]
    exact Piece.isValid_append before (cs ++ after)
  isValid_stop := by
    rw [← Piece.byteLength_append]
    exact Piece.isValid_append (before ++ cs) after
  extract_eq := by
    rw [Piece.byteLength_eq_utf8Len, Piece.byteLength_eq_utf8Len]
    exact String.extract_of_valid before cs after

def Ending.slices (consumed : Nat) : Ending → List Slice
  | .closed text _ => [⟨consumed, consumed + byteLength text, text⟩]
  | .unclosed text rest _ _ =>
    let opener := consumed + byteLength text
    [⟨consumed, opener, text⟩, ⟨opener + 2, opener + 2 + byteLength rest, rest⟩]

def slices (consumed : Nat) : List Slot → Ending → List Slice
  | [], ending => ending.slices consumed
  | slot :: slots, ending =>
    let opener := consumed + byteLength slot.literal
    let closer := opener + 2 + byteLength slot.key
    ⟨consumed, opener, slot.literal⟩ :: ⟨opener + 2, closer, slot.key⟩
      :: slices (closer + 1) slots ending

theorem Slice.liesIn_opener {slice : Slice} (before text key after : List Char)
    (h : slice = ⟨byteLength before, byteLength before + byteLength text, text⟩ ∨
      slice = ⟨byteLength before + byteLength text + 2,
        byteLength before + byteLength text + 2 + byteLength key, key⟩)
    : slice.LiesIn (String.ofList (before ++ (text ++ '%' :: '{' :: (key ++ after)))) := by
  cases h with
  | inl h =>
    rw [h, ← List.append_assoc]
    exact liesIn_append before text _
  | inr h =>
    have hkey := liesIn_append (before ++ text ++ ['%', '{']) key after
    have hopener : byteLength ['%', '{'] = 2 := rfl
    rw [Piece.byteLength_append, Piece.byteLength_append, hopener] at hkey
    rw [h]
    simpa using hkey

theorem Ending.liesIn_of_mem_slices (before : List Char) (ending : Ending) {slice : Slice}
    (h : slice ∈ ending.slices (byteLength before))
    : slice.LiesIn (String.ofList (before ++ ending.text)) := by
  cases ending with
  | closed text =>
    rw [List.mem_singleton.mp h]
    simpa [Ending.text] using Slice.liesIn_append before text []
  | unclosed text rest =>
    simp only [slices, List.mem_cons, List.not_mem_nil, or_false] at h
    simpa [Ending.text] using Slice.liesIn_opener before text rest [] h

theorem liesIn_of_mem_slices (before : List Char) (slots : List Slot) (ending : Ending)
    {slice : Slice} (h : slice ∈ slices (byteLength before) slots ending)
    : slice.LiesIn (String.ofList (before ++ text ⟨slots, ending⟩)) := by
  induction slots generalizing before with
  | nil => exact ending.liesIn_of_mem_slices before h
  | cons slot slots ih =>
    simp only [slices, List.mem_cons, ← or_assoc] at h
    rw [text_cons]
    cases h with
    | inl h =>
      rw [slot.text_append]
      exact Slice.liesIn_opener before slot.literal slot.key _ h
    | inr h =>
      -- The rest of the text is read from where the slot stops.
      have hconsumed : byteLength (before ++ slot.text) =
          byteLength before + byteLength slot.literal + 2 + byteLength slot.key + 1 := by
        rw [Piece.byteLength_append, slot.byteLength_text]
        omega
      rw [← hconsumed] at h
      rw [← List.append_assoc]
      exact ih (before ++ slot.text) h

end Cut
end RunnerKit
