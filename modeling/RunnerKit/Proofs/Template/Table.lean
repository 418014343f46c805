import Mathlib.Data.List.Forall2
import RunnerKit.Proofs.Text.Bytes
import RunnerKit.Template.Listing
/-!
This module contains the alignment of the table of templates. A column is as wide as the longest of
its texts in bytes, but the texts are filled up to that width in characters. That the rows are
aligned all the same is because no text has more characters than bytes.
-/

namespace RunnerKit

def blanks (n : Nat) : String := String.ofList (List.replicate n ' ')

/--
A row that shows a template in columns: two blanks and the id, the path style at the column `style`
and the description at the column `description`. A column is as far to the right as there are
characters before it. Only blanks stand between the texts, at least two of them.
-/
inductive Aligned (style description : Nat) (info : TemplateInfo) : String → Prop where
  | row (before after : Nat) (hbefore : 2 ≤ before) (hafter : 2 ≤ after)
      (hstyle : ("  " ++ info.id ++ blanks before).length = style)
      (hdescription :
        ("  " ++ info.id ++ blanks before ++ info.pathStyle ++ blanks after).length = description)
      : Aligned style description info
          ("  " ++ info.id ++ blanks before ++ info.pathStyle ++ blanks after ++ info.description)

def columnWidth (text : TemplateInfo → String) (infos : List TemplateInfo) : Nat :=
  (infos.map fun info => (text info).utf8ByteSize).foldl max 0

@[simp]
theorem length_blanks (n : Nat) : (blanks n).length = n := by
  rw [blanks, String.length_ofList, List.length_replicate]

theorem two_blanks_eq : "  " = blanks 2 := by decide

theorem append_blanks_append (s : String) (m n : Nat)
    : s ++ blanks m ++ blanks n = s ++ blanks (m + n) := by
  rw [String.append_assoc, blanks, blanks, ← String.ofList_append, List.replicate_append_replicate,
    blanks]

theorem padded_eq (width : Nat) (s : String)
    : padded width s = s ++ blanks (width - s.length) := rfl

theorem append_padded_append (before s : String) (width : Nat)
    : before ++ padded width s ++ "  " = before ++ s ++ blanks (width - s.length + 2) := by
  rw [two_blanks_eq, ← append_blanks_append, padded_eq, ← String.append_assoc]

theorem length_le_columnWidth {infos : List TemplateInfo} {info : TemplateInfo} (h : info ∈ infos)
    (text : TemplateInfo → String) : (text info).length ≤ columnWidth text infos := by
  have hmem : (text info).utf8ByteSize ∈ infos.map fun info => (text info).utf8ByteSize :=
    List.mem_map_of_mem h
  calc (text info).length
    _ ≤ (text info).utf8ByteSize := length_le_utf8ByteSize _
    _ ≤ (infos.map fun info => (text info).utf8ByteSize).max?.getD 0 :=
      List.le_max?_getD_of_mem hmem
    _ ≤ columnWidth text infos := by
      rw [columnWidth, List.foldl_max]
      exact Nat.le_max_right _ _

theorem aligned_of_length_le {idWidth styleWidth : Nat} {info : TemplateInfo}
    (hid : info.id.length ≤ idWidth) (hstyle : info.pathStyle.length ≤ styleWidth)
    : Aligned (2 + idWidth + 2) (2 + idWidth + 2 + styleWidth + 2) info
        ("  " ++ padded idWidth info.id ++ "  " ++ padded styleWidth info.pathStyle ++ "  " ++
          info.description) := by
  rw [append_padded_append, append_padded_append]
  apply Aligned.row
  . exact Nat.le_add_left 2 _
  . exact Nat.le_add_left 2 _
  . simp only [String.length_append, length_blanks, two_blanks_eq]
    omega
  . simp only [String.length_append, length_blanks, two_blanks_eq]
    omega

theorem exists_aligned_tableRows (infos : List TemplateInfo)
    : ∃ style description, List.Forall₂ (Aligned style description) infos (tableRows infos) := by
  let style := 2 + columnWidth TemplateInfo.id infos + 2
  let description := style + columnWidth TemplateInfo.pathStyle infos + 2
  refine ⟨style, description, ?_⟩
  rw [tableRows, List.forall₂_map_right_iff, List.forall₂_same]
  intro info hinfo
  exact aligned_of_length_le (length_le_columnWidth hinfo TemplateInfo.id)
    (length_le_columnWidth hinfo TemplateInfo.pathStyle)

example
    : tableRows [⟨"größe", "a", "default", 1⟩, ⟨"hello", "b", "app-scoped", 1⟩] =
      ["  größe    default     a", "  hello    app-scoped  b"] := by rfl

end RunnerKit
