import Mathlib.Data.List.Forall2
import Mathlib.Data.List.Induction
import RunnerKit.Proofs.Template.Concatenation
import RunnerKit.Proofs.Text.Bytes
import RunnerKit.Template.Builtin
/-!
This module contains the lines of texts and how they are rendered. No placeholder opens across the
end of a line, so the lines of a rendered text are the lines of the text, each of them rendered.
-/

namespace RunnerKit

def Contains (text part : String) : Prop := ∃ before after, text = before ++ part ++ after

theorem contains_refl (text : String) : Contains text text := ⟨"", "", by simp⟩

theorem contains_append (before part : String) : Contains (before ++ part) part :=
  ⟨before, "", by rw [String.append_empty]⟩

def HasLine (text line : String) : Prop :=
  ∃ before after, text = before ++ line ++ after ∧
    (before = "" ∨ ∃ lines, before = lines ++ "\n") ∧ (after = "" ∨ ∃ lines, after = "\n" ++ lines)

theorem HasLine.contains {text line part : String} (h : HasLine text line) (hpart : Contains line part)
    : Contains text part := by
  obtain ⟨before, after, rfl, _, _⟩ := h
  obtain ⟨left, right, rfl⟩ := hpart
  exact ⟨before ++ left, right ++ after, by simp only [String.append_assoc]⟩

namespace Builtin

def slot (key : String) : String := "%\x7b" ++ key ++ "\x7d"

theorem unlines_cons (line : String) (lines : List String)
    : unlines (line :: lines) = line ++ ("\n" ++ unlines lines) := by
  rw [unlines, List.map_cons, String.join_cons, String.append_assoc]
  rfl

theorem unlines_append (before after : List String)
    : unlines (before ++ after) = unlines before ++ unlines after := by
  rw [unlines, List.map_append, String.join_append]
  rfl

theorem hasLine_unlines {line : String} {lines : List String} (h : line ∈ lines)
    : HasLine (unlines lines) line := by
  obtain ⟨before, after, rfl⟩ := List.append_of_mem h
  refine ⟨unlines before, "\n" ++ unlines after, ?_, ?_, Or.inr ⟨unlines after, rfl⟩⟩
  . rw [unlines_append, unlines_cons, String.append_assoc]
  . cases before using List.reverseRecOn with
    | nil => exact Or.inl rfl
    | append_singleton before last _ =>
      refine Or.inr ⟨unlines before ++ last, ?_⟩
      rw [unlines_append, unlines_cons, String.append_assoc]
      rfl

end Builtin

def Piece.isKnown (keys : List String) : Piece → Bool
  | .literal _ => true
  | .slot key => keys.contains (String.ofList key)
  | .unclosed _ => false

/--
Whether a text is rendered in every context that has these keys. One without a percent sign is, and
its bytes tell without being read as characters.
-/
def isKnown (keys : List String) (source : String) : Bool :=
  !source.toByteArray.data.toList.contains 37 ||
    (Piece.scan 0 source.toList).all (Piece.isKnown keys)

theorem plain_of_not_contains {source : String}
    (h : source.toByteArray.data.toList.contains 37 = false) : Plain source.toList := by
  apply plain_of_notMem
  intro hpercent
  have hbyte : 37 ∈ utf8Bytes source := by
    rw [utf8Bytes_eq_flatMap, List.mem_flatMap]
    exact ⟨'%', hpercent, by decide⟩
  rw [utf8Bytes_eq_data, ← List.contains_iff_mem, h] at hbyte
  cases hbyte

namespace Context

variable {ctx : Context}

theorem get?_bind (ctx : Context) (key value key' : String)
    : (ctx.bind key value).get? key' = if key = key' then some value else ctx.get? key' := by
  simp only [bind, get?, Std.TreeMap.getElem?_insert, Std.LawfulEqCmp.compare_eq_iff_eq]

theorem render_slot {key value : String} (hkey : '}' ∉ key.toList) (hvalue : ctx.get? key = some value)
    : ctx.render (Builtin.slot key) = .ok value := by
  have hslot : (Builtin.slot key).toList = '%' :: '{' :: (key.toList ++ '}' :: []) := by
    simp [Builtin.slot]
  have hscan : Piece.scan 0 (Builtin.slot key).toList = [.slot key.toList] := by
    rw [hslot, Piece.scan_slot 0 hkey, Piece.scan]
  have hfilled : ctx.fillAll [.slot key.toList] = .ok (value.toList ++ []) := by
    rw [fillAll, fill, String.ofList_toList, hvalue]
    rfl
  rw [render, hscan, hfilled, List.append_nil]
  exact congrArg Except.ok String.ofList_toList

theorem render_append_slot {source filled key value : String} (hkey : '}' ∉ key.toList)
    (hvalue : ctx.get? key = some value) (h : ctx.render source = .ok filled)
    : ctx.render (source ++ Builtin.slot key) = .ok (filled ++ value) := by
  apply render_append_ok h (render_slot hkey hvalue)
  rintro ⟨_, hhead⟩
  simp [Builtin.slot] at hhead

theorem exists_fillAll {keys : List String} {pieces : List Piece}
    (hkeys : ∀ key ∈ keys, ∃ value, ctx.get? key = some value)
    (hknown : pieces.all (Piece.isKnown keys)) : ∃ cs, ctx.fillAll pieces = .ok cs := by
  induction pieces with
  | nil => exact ⟨[], rfl⟩
  | cons piece pieces ih =>
    rw [List.all_cons, Bool.and_eq_true] at hknown
    obtain ⟨cs, hcs⟩ := ih hknown.2
    cases piece with
    | literal c => exact ⟨c :: cs, by rw [fillAll, hcs]; rfl⟩
    | slot key =>
      obtain ⟨value, hvalue⟩ := hkeys (String.ofList key) (by simpa [Piece.isKnown] using hknown.1)
      exact ⟨value.toList ++ cs, by rw [fillAll, fill, hvalue, hcs]; rfl⟩
    | unclosed offset => simp [Piece.isKnown] at hknown

theorem exists_render {keys : List String} {source : String}
    (hkeys : ∀ key ∈ keys, ∃ value, ctx.get? key = some value) (hknown : isKnown keys source)
    : ∃ text, ctx.render source = .ok text := by
  rw [isKnown, Bool.or_eq_true, Bool.not_eq_true'] at hknown
  cases hknown with
  | inl hpercent => exact ⟨source, render_plain (plain_of_not_contains hpercent)⟩
  | inr hpieces =>
    obtain ⟨cs, hcs⟩ := exists_fillAll hkeys hpieces
    exact ⟨String.ofList cs, by rw [render, hcs]; rfl⟩

theorem render_line_append {line text more texts : String} (hline : ctx.render line = .ok text)
    (hmore : ctx.render more = .ok texts)
    : ctx.render (line ++ ("\n" ++ more)) = .ok (text ++ ("\n" ++ texts)) := by
  apply render_append_ok hline
  . exact render_mark_append (by decide) hmore
  . rintro ⟨_, hhead⟩
    simp at hhead

theorem render_unlines_of_forall₂ {lines texts : List String}
    (h : List.Forall₂ (fun line text => ctx.render line = .ok text) lines texts)
    : ctx.render (Builtin.unlines lines) = .ok (Builtin.unlines texts) := by
  induction h with
  | nil => exact render_mark (by decide)
  | cons hline _ ih =>
    rw [Builtin.unlines_cons, Builtin.unlines_cons]
    exact render_line_append hline ih

theorem render_unlines {lines : List String} {fillLine : String → String}
    (h : ∀ line ∈ lines, ctx.render line = .ok (fillLine line))
    : ctx.render (Builtin.unlines lines) = .ok (Builtin.unlines (lines.map fillLine)) :=
  render_unlines_of_forall₂ (List.forall₂_map_right_iff.mpr (List.forall₂_same.mpr h))

theorem exists_render_unlines {keys lines : List String}
    (hkeys : ∀ key ∈ keys, ∃ value, ctx.get? key = some value)
    (hknown : ∀ line ∈ lines, isKnown keys line)
    : ∃ text, ctx.render (Builtin.unlines lines) = .ok text ∧
        ∀ line ∈ lines, ∀ filled, ctx.render line = .ok filled → HasLine text filled := by
  -- A line opens no placeholder together with its break, so what it is rendered to is a line again.
  have hrender : ∀ line ∈ lines, ∃ text, ctx.render line = .ok text :=
    fun line hline => exists_render hkeys (hknown line hline)
  choose! fillLine hfill using hrender
  refine ⟨_, render_unlines hfill, ?_⟩
  intro line hline filled hfilled
  rw [hfill line hline] at hfilled
  cases hfilled
  exact Builtin.hasLine_unlines (List.mem_map_of_mem hline)

end Context

end RunnerKit
