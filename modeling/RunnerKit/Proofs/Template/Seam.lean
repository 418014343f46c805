import RunnerKit.Proofs.Template.Concatenation
import RunnerKit.Proofs.Template.Rendering
/-!
This module contains what becomes of two texts that are put together, in terms of what becomes of
each of them: the text on the right goes on where the text on the left ends, and a placeholder that
is not bound stays the first one whatever comes after it.
-/

namespace RunnerKit

namespace Cut

theorem exists_text_append_eq (before : List Slot) (slot : Slot) (rest : List Char)
    : ∃ d : Cut, text ⟨before ++ slot :: d.slots, d.ending⟩ =
        before.flatMap Slot.text ++ (slot.text ++ rest) := by
  obtain ⟨d, hd⟩ := exists_text_eq rest
  refine ⟨d, ?_⟩
  rw [← hd]
  simp [text]

end Cut

namespace Context

/--
What becomes of a text, by itself and behind another one that becomes `filled`. The byte of an opener
that nothing closes is counted from the start of both.
-/
inductive Continued (left filled : String)
    : Except Violation String → Except Violation String → Prop where
  | filled (more : String) : Continued left filled (.ok more) (.ok (filled ++ more))
  | unknown (key : String)
    : Continued left filled (.error (.unknownPlaceholder key)) (.error (.unknownPlaceholder key))
  | unterminated (offset : Nat)
    : Continued left filled (.error (.unterminatedPlaceholder offset))
        (.error (.unterminatedPlaceholder (left.utf8ByteSize + offset)))

variable {ctx : Context}

theorem Outcome.continued {d : Cut} {result : Except Violation String} (h : ctx.Outcome d result)
    (left filled : String)
    : Continued left filled result
        ((result.mapError (Violation.shift left.utf8ByteSize)).map (filled ++ ·)) := by
  cases h with
  | filled => exact .filled _
  | unknown => exact .unknown _
  | unterminated => exact .unterminated _

theorem exists_outcome_render (ctx : Context) (source : String)
    : ∃ d : Cut, d.text = source.toList ∧ ctx.Outcome d (ctx.render source) := by
  obtain ⟨d, hd⟩ := Cut.exists_text_eq source.toList
  obtain ⟨result, hresult⟩ := ctx.exists_outcome d
  refine ⟨d, hd, ?_⟩
  rw [hresult.render_eq hd]
  exact hresult

theorem Outcome.of_unknown {d : Cut} {key : String}
    (h : ctx.Outcome d (.error (.unknownPlaceholder key))) (right : List Char)
    : ∃ d' : Cut, d'.text = d.text ++ right ∧
        ctx.Outcome d' (.error (.unknownPlaceholder key)) := by
  generalize hresult : Except.error (Violation.unknownPlaceholder key) = result at h
  cases h with
  | filled | unterminated => cases hresult
  | @unknown before after slot ending cs h hslot =>
    cases hresult
    obtain ⟨d', hd'⟩ := Cut.exists_text_append_eq before slot (Cut.text ⟨after, ending⟩ ++ right)
    refine ⟨⟨before ++ slot :: d'.slots, d'.ending⟩, ?_, .unknown h hslot⟩
    rw [hd']
    simp [Cut.text]

theorem render_append_of_unknown {left key : String}
    (h : ctx.render left = .error (.unknownPlaceholder key)) (right : String)
    : ctx.render (left ++ right) = .error (.unknownPlaceholder key) := by
  obtain ⟨d, hd, houtcome⟩ := ctx.exists_outcome_render left
  rw [h] at houtcome
  obtain ⟨d', hd', houtcome'⟩ := houtcome.of_unknown right.toList
  apply houtcome'.render_eq
  rw [hd', hd, String.toList_append]

theorem continued_render_append (ctx : Context) (left right : String)
    : (∀ filled, ctx.render left = .ok filled → ¬OpensBetween left.toList right.toList →
        Continued left filled (ctx.render right) (ctx.render (left ++ right))) ∧
      (∀ key, ctx.render left = .error (.unknownPlaceholder key) →
        ctx.render (left ++ right) = .error (.unknownPlaceholder key)) := by
  constructor
  . intro filled hleft hseam
    obtain ⟨d, _, houtcome⟩ := ctx.exists_outcome_render right
    rw [render_append hleft hseam]
    exact houtcome.continued left filled
  . intro key hleft
    exact render_append_of_unknown hleft right

theorem continued_render_append_percents
    : let ctx := (⟨∅⟩ : Context).bind "KEY" "value"
      ctx.render ("é%%\x7bKEY\x7d%" ++ "%\x7bOTHER") = .error (.unterminatedPlaceholder 10) ∧
      ctx.render ("%\x7bOTHER\x7d%" ++ "\x7b\x7d") = .error (.unknownPlaceholder "OTHER") := by
  intro ctx
  have hleft : ctx.render "é%%\x7bKEY\x7d%" = .ok "é%value%" := by decide +kernel
  have hright : ctx.render "%\x7bOTHER" = .error (.unterminatedPlaceholder 0) := by decide +kernel
  have hunknown : ctx.render "%\x7bOTHER\x7d%" = .error (.unknownPlaceholder "OTHER") := by decide +kernel
  have hcontinued := (ctx.continued_render_append _ "%\x7bOTHER").1 _ hleft (by decide)
  refine ⟨?_, (ctx.continued_render_append _ _).2 _ hunknown⟩
  rw [hright] at hcontinued
  generalize ctx.render _ = result at hcontinued ⊢
  cases hcontinued
  decide

/-! An opener that lies across the place where two texts meet belongs to neither of them. -/

example : let ctx := (⟨∅⟩ : Context).bind "KEY" "value"
    ctx.render "%" = .ok "%" ∧ ctx.render "\x7bKEY\x7d" = .ok "\x7bKEY\x7d" ∧
      ctx.render ("%" ++ "\x7bKEY\x7d") = .ok "value" := by
  decide +kernel

end Context
end RunnerKit
