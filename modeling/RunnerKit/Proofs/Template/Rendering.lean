import RunnerKit.Proofs.Template.Scan
import RunnerKit.Template.Context
/-!
This module contains what a text with placeholders is rendered to, in terms of the one way to cut
it. All slices on the way lie in the text, between characters.
-/

namespace RunnerKit
namespace Context

variable (ctx : Context)

inductive Filled : List Cut.Slot → List Char → Prop where
  | nil : Filled [] []
  | cons {slot : Cut.Slot} {slots : List Cut.Slot} {value : String} {cs : List Char}
      (hvalue : ctx.get? (String.ofList slot.key) = some value) (h : Filled slots cs)
    : Filled (slot :: slots) (slot.literal ++ value.toList ++ cs)

/--
What a text that is cut at its placeholders becomes. The first placeholder from the left that is not
bound or not closed decides the error.
-/
inductive Outcome : Cut → Except Violation String → Prop where
  | filled {slots : List Cut.Slot} {cs literal : List Char} {plain : Plain literal}
      (h : ctx.Filled slots cs)
    : Outcome ⟨slots, .closed literal plain⟩ (.ok (String.ofList (cs ++ literal)))
  | unknown {before after : List Cut.Slot} {slot : Cut.Slot} {ending : Cut.Ending} {cs : List Char}
      (h : ctx.Filled before cs) (hslot : ctx.get? (String.ofList slot.key) = none)
    : Outcome ⟨before ++ slot :: after, ending⟩
        (.error (.unknownPlaceholder (String.ofList slot.key)))
  | unterminated {slots : List Cut.Slot} {cs literal rest : List Char} {plain : Plain literal}
      {unbraced : '}' ∉ rest} (h : ctx.Filled slots cs)
    : Outcome ⟨slots, .unclosed literal rest plain unbraced⟩
        (.error (.unterminatedPlaceholder
          (String.ofList (slots.flatMap Cut.Slot.text ++ literal)).utf8ByteSize))

variable {ctx}

theorem fillAll_literal_append (cs : List Char) (pieces : List Piece)
    : ctx.fillAll (cs.map .literal ++ pieces) = (ctx.fillAll pieces).map (cs ++ ·) := by
  induction cs with
  | nil =>
    simp only [List.map_nil, List.nil_append]
    cases ctx.fillAll pieces <;> rfl
  | cons c cs ih =>
    rw [List.map_cons, List.cons_append, fillAll, ih]
    cases ctx.fillAll pieces <;> rfl

theorem fillAll_slot_append {slot : Cut.Slot} {value : String}
    (hvalue : ctx.get? (String.ofList slot.key) = some value) (pieces : List Piece)
    : ctx.fillAll (slot.pieces ++ pieces) =
      (ctx.fillAll pieces).map (slot.literal ++ value.toList ++ ·) := by
  rw [Cut.Slot.pieces, List.append_assoc, fillAll_literal_append, List.singleton_append, fillAll, fill,
    hvalue]
  cases ctx.fillAll pieces with
  | error => rfl
  | ok cs => exact congrArg Except.ok (List.append_assoc slot.literal value.toList cs).symm

theorem fillAll_slot_append_of_get?_eq_none {slot : Cut.Slot}
    (hslot : ctx.get? (String.ofList slot.key) = none) (pieces : List Piece)
    : ctx.fillAll (slot.pieces ++ pieces) =
      .error (.unknownPlaceholder (String.ofList slot.key)) := by
  rw [Cut.Slot.pieces, List.append_assoc, fillAll_literal_append, List.singleton_append, fillAll, fill,
    hslot]
  rfl

theorem Filled.fillAll_append {slots : List Cut.Slot} {cs : List Char} (h : ctx.Filled slots cs)
    (pieces : List Piece)
    : ctx.fillAll (slots.flatMap Cut.Slot.pieces ++ pieces) =
      (ctx.fillAll pieces).map (cs ++ ·) := by
  induction h with
  | nil =>
    simp only [List.flatMap_nil, List.nil_append]
    cases ctx.fillAll pieces <;> rfl
  | cons hvalue _ ih =>
    rw [List.flatMap_cons, List.append_assoc, fillAll_slot_append hvalue, ih]
    cases ctx.fillAll pieces with
    | error => rfl
    | ok => simp only [Except.map, List.append_assoc]

theorem filled_or_unknown (slots : List Cut.Slot)
    : (∃ cs, ctx.Filled slots cs) ∨
      (∃ before slot after cs, slots = before ++ slot :: after ∧ ctx.Filled before cs ∧
        ctx.get? (String.ofList slot.key) = none) := by
  induction slots with
  | nil => exact Or.inl ⟨[], .nil⟩
  | cons first slots ih =>
    cases hvalue : ctx.get? (String.ofList first.key) with
    | none => exact Or.inr ⟨[], first, slots, [], rfl, .nil, hvalue⟩
    | some value =>
      cases ih with
      | inl h =>
        obtain ⟨cs, hcs⟩ := h
        exact Or.inl ⟨_, .cons hvalue hcs⟩
      | inr h =>
        obtain ⟨before, slot, after, cs, hslots, hbefore, hslot⟩ := h
        exact Or.inr
          ⟨first :: before, slot, after, _, by rw [hslots]; rfl, .cons hvalue hbefore, hslot⟩

theorem exists_outcome (d : Cut) : ∃ result, ctx.Outcome d result := by
  obtain ⟨slots, ending⟩ := d
  cases ctx.filled_or_unknown slots with
  | inl h =>
    obtain ⟨cs, hcs⟩ := h
    cases ending with
    | closed => exact ⟨_, .filled hcs⟩
    | unclosed => exact ⟨_, .unterminated hcs⟩
  | inr h =>
    obtain ⟨before, slot, after, cs, hslots, hbefore, hslot⟩ := h
    subst hslots
    exact ⟨_, .unknown hbefore hslot⟩

theorem Outcome.render_eq {d : Cut} {source : String} {result : Except Violation String}
    (h : ctx.Outcome d result) (hsource : d.text = source.toList) : ctx.render source = result := by
  rw [render, ← hsource, Cut.scan_text]
  cases h with
  | @filled slots cs text plain h =>
    have hliteral : ctx.fillAll (text.map .literal ++ []) = _ := fillAll_literal_append text []
    rw [List.append_nil] at hliteral
    rw [h.fillAll_append, Cut.Ending.pieces, hliteral]
    simp [fillAll, Except.map]
  | @unknown before after slot ending cs h hslot =>
    simp only [List.flatMap_append, List.flatMap_cons, List.append_assoc]
    rw [h.fillAll_append, fillAll_slot_append_of_get?_eq_none hslot]
    rfl
  | @unterminated slots cs text rest plain unbraced h =>
    rw [h.fillAll_append, Cut.Ending.pieces, fillAll_literal_append, Nat.zero_add,
      ← Piece.byteLength_append, Piece.byteLength_eq_utf8Len, ← String.utf8ByteSize_ofList]
    rfl

theorem render_eq_iff_outcome (ctx : Context) (source : String)
    : ∃ d : Cut, d.text = source.toList ∧
        (∀ other : Cut, other.text = source.toList → other = d) ∧
        (∀ result, ctx.render source = result ↔ ctx.Outcome d result) ∧
        (∀ slice ∈ Cut.slices 0 d.slots d.ending, slice.LiesIn source) := by
  obtain ⟨d, hd⟩ := Cut.exists_text_eq source.toList
  refine ⟨d, hd, ?_, ?_, ?_⟩
  . intro other hother
    exact Cut.text_injective (hother.trans hd.symm)
  . intro result
    constructor
    . intro hresult
      obtain ⟨outcome, houtcome⟩ := ctx.exists_outcome d
      rw [← hresult, houtcome.render_eq hd]
      exact houtcome
    . intro houtcome
      exact houtcome.render_eq hd
  . intro slice hslice
    have hlies := Cut.liesIn_of_mem_slices [] d.slots d.ending hslice
    rwa [List.nil_append, show Cut.text ⟨d.slots, d.ending⟩ = d.text from rfl, hd,
      String.ofList_toList] at hlies

/-! An opener that nothing closes is found by its byte, not by its character. -/

example : (⟨∅⟩ : Context).render "é%\x7bkey" = .error (.unterminatedPlaceholder 2) := by
  decide +kernel

end Context
end RunnerKit
