import RunnerKit.Proofs.Identity
import RunnerKit.Settings.Environment
/-!
This module contains what a text counts as that a variable gives for a setting. It is read as a flag
or a number where it can be, and then the form of these counts and not the one it was given in.
-/

namespace RunnerKit.Settings

theorem valueOfText_of_ne {text : String} (hflag : ∀ b : Bool, asciiLower text ≠ toString b)
    : valueOfText text =
      (((readInt64? text.toList).map Value.integer).or
        ((readNumber? text.toList).map Value.number)).getD (.text text) := by
  unfold valueOfText
  split
  . exact absurd ‹_› (hflag true)
  . exact absurd ‹_› (hflag false)
  . cases readInt64? text.toList with
    | some n => rfl
    | none => cases readNumber? text.toList <;> rfl

example : (valueOfText "007").text? = some "7" := by
  rfl

/-! A text that is read as a flag or a number has no characters but those of flags and numbers. -/

end RunnerKit.Settings
