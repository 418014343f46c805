import RunnerKit.Proofs.Project.Render
import RunnerKit.Proofs.Template.Scan
import RunnerKit.Template.Context
/-!
This module contains the rendering of texts that are put one after the other. They are rendered one
by one, unless a placeholder opens where two of them meet.
-/

namespace RunnerKit

def OpensBetween (left right : List Char) : Prop :=
  left.getLast? = some '%' ∧ right.head? = some '{'

instance (left right : List Char) : Decidable (OpensBetween left right) :=
  inferInstanceAs (Decidable (_ ∧ _))

theorem plain_of_notMem {cs : List Char} (h : '%' ∉ cs) : Plain cs :=
  fun hopens => h (hopens.subset List.mem_cons_self)

theorem OpensBetween.append_left {left right : List Char} (h : OpensBetween left right)
    (front : List Char) : OpensBetween (front ++ left) right := by
  refine ⟨?_, h.2⟩
  rw [List.getLast?_append, h.1]
  rfl

namespace Piece

theorem scan_literal (offset : Nat) {c : Char} {cs : List Char}
    (hopener : ∀ rest, c = '%' → cs = '{' :: rest → False)
    : scan offset (c :: cs) = literal c :: scan (offset + c.utf8Size) cs := by
  rw [scan]
  exact hopener

theorem scan_append (offset : Nat) (left right : List Char)
    (hclosed : ∀ opener, unclosed opener ∉ scan offset left) (hseam : ¬OpensBetween left right)
    : scan offset (left ++ right) =
      scan offset left ++ scan (offset + byteLength left) right := by
  induction offset, left using Piece.scan.induct with
  | case1 offset cs hsplit =>
    rw [splitClosing_eq_none_iff] at hsplit
    exact absurd (by rw [scan_unclosed offset hsplit]; simp) (hclosed offset)
  | case2 offset cs key rest hsplit _ ih =>
    obtain ⟨rfl, hkey⟩ := splitClosing_eq_some_iff.mp hsplit
    have hslot : '%' :: '{' :: (key ++ '}' :: rest) = ('%' :: '{' :: key ++ ['}']) ++ rest := by
      simp
    have hlength : offset + byteLength ('%' :: '{' :: (key ++ '}' :: rest)) =
        offset + byteLength key + 3 + byteLength rest := by
      have hsizes : '%'.utf8Size = 1 ∧ '{'.utf8Size = 1 ∧ '}'.utf8Size = 1 := by decide
      simp only [byteLength, byteLength_append]
      omega
    have hrest : ¬OpensBetween rest right := by
      rw [hslot] at hseam
      exact fun h => hseam (h.append_left _)
    rw [hlength, scan_slot offset hkey, List.cons_append, List.cons_append, List.append_assoc,
      List.cons_append, scan_slot offset hkey, List.cons_append]
    rw [scan_slot offset hkey] at hclosed
    rw [ih (fun opener h => hclosed opener (List.mem_cons_of_mem _ h)) hrest]
  | case3 offset c cs hopener ih =>
    have hopener' : ∀ rest, c = '%' → cs ++ right = '{' :: rest → False := by
      intro rest hc hrest
      cases cs with
      | nil =>
        rw [List.nil_append] at hrest
        exact hseam ⟨by rw [hc]; rfl, by rw [hrest]; rfl⟩
      | cons d cs =>
        rw [List.cons_append, List.cons.injEq] at hrest
        exact hopener cs hc (by rw [hrest.1])
    rw [scan_literal offset hopener] at hclosed ⊢
    rw [List.cons_append, scan_literal offset hopener', ih, byteLength, Nat.add_assoc]
    . rfl
    . exact fun opener h => hclosed opener (List.mem_cons_of_mem _ h)
    . exact fun h => hseam (h.append_left [c])
  | case4 offset => simp [scan, byteLength]

def shift (bytes : Nat) : Piece → Piece
  | .unclosed offset => .unclosed (bytes + offset)
  | piece => piece

theorem scan_add (bytes offset : Nat) (cs : List Char)
    : scan (bytes + offset) cs = (scan offset cs).map (shift bytes) := by
  induction offset, cs using Piece.scan.induct with
  | case1 offset cs hsplit =>
    rw [splitClosing_eq_none_iff] at hsplit
    rw [scan_unclosed _ hsplit, scan_unclosed _ hsplit]
    rfl
  | case2 offset cs key rest hsplit _ ih =>
    obtain ⟨rfl, hkey⟩ := splitClosing_eq_some_iff.mp hsplit
    rw [scan_slot _ hkey, scan_slot _ hkey, List.map_cons, ← ih, Nat.add_assoc, Nat.add_assoc,
      Nat.add_assoc]
    rfl
  | case3 offset c cs hopener ih =>
    rw [scan_literal _ hopener, scan_literal _ hopener, List.map_cons, ← ih, Nat.add_assoc]
    rfl
  | case4 offset => simp [scan]

end Piece

def Violation.shift (bytes : Nat) : Violation → Violation
  | .unterminatedPlaceholder offset => .unterminatedPlaceholder (bytes + offset)
  | v => v

namespace Context

variable {ctx : Context}

theorem fill_shift (bytes : Nat) (piece : Piece)
    : ctx.fill (piece.shift bytes) = (ctx.fill piece).mapError (Violation.shift bytes) := by
  cases piece with
  | literal c => rfl
  | slot key =>
    rw [Piece.shift, fill]
    . cases ctx.get? (String.ofList key) <;> rfl
    . simp
  | unclosed offset => rfl

theorem fillAll_shift (bytes : Nat) (pieces : List Piece)
    : ctx.fillAll (pieces.map (Piece.shift bytes)) =
      (ctx.fillAll pieces).mapError (Violation.shift bytes) := by
  induction pieces with
  | nil => rfl
  | cons piece pieces ih =>
    rw [List.map_cons, fillAll, fillAll, fill_shift, ih]
    cases ctx.fill piece with
    | error v => rfl
    | ok chars => cases ctx.fillAll pieces <;> rfl

theorem fillAll_append {left : List Piece} {cs : List Char} (h : ctx.fillAll left = .ok cs)
    (right : List Piece)
    : ctx.fillAll (left ++ right) = (ctx.fillAll right).map (cs ++ ·) := by
  induction left generalizing cs with
  | nil =>
    cases h
    rw [List.nil_append]
    cases ctx.fillAll right <;> rfl
  | cons piece left ih =>
    rw [fillAll, bind_eq_ok_iff] at h
    obtain ⟨chars, hpiece, h⟩ := h
    rw [bind_eq_ok_iff] at h
    obtain ⟨rest, hrest, hcs⟩ := h
    cases hcs
    rw [List.cons_append, fillAll, hpiece, ih hrest]
    cases ctx.fillAll right with
    | error v => rfl
    | ok more => exact congrArg Except.ok (List.append_assoc chars rest more).symm

theorem unclosed_notMem_of_fillAll {pieces : List Piece} {cs : List Char}
    (h : ctx.fillAll pieces = .ok cs) (offset : Nat) : .unclosed offset ∉ pieces := by
  induction pieces generalizing cs with
  | nil => simp
  | cons piece pieces ih =>
    rw [fillAll, bind_eq_ok_iff] at h
    obtain ⟨chars, hpiece, h⟩ := h
    rw [bind_eq_ok_iff] at h
    obtain ⟨rest, hrest, _⟩ := h
    rw [List.mem_cons, not_or]
    refine ⟨?_, ih hrest⟩
    rintro rfl
    cases hpiece

theorem render_append {left right filled : String} (h : ctx.render left = .ok filled)
    (hseam : ¬OpensBetween left.toList right.toList)
    : ctx.render (left ++ right) =
      ((ctx.render right).mapError (Violation.shift left.utf8ByteSize)).map (filled ++ ·) := by
  unfold render at h ⊢
  cases hleft : ctx.fillAll (Piece.scan 0 left.toList) with
  | error v =>
    rw [hleft] at h
    cases h
  | ok cs =>
    rw [hleft] at h
    cases h
    have hscan := Piece.scan_append 0 left.toList right.toList (unclosed_notMem_of_fillAll hleft) hseam
    have hlength : Piece.byteLength left.toList = left.utf8ByteSize := by
      rw [Piece.byteLength_eq_utf8Len, ← String.utf8ByteSize_ofList, String.ofList_toList]
    rw [String.toList_append, hscan, fillAll_append hleft, Nat.add_comm, Piece.scan_add,
      fillAll_shift, hlength]
    cases ctx.fillAll (Piece.scan 0 right.toList) with
    | error v => rfl
    | ok more => exact congrArg Except.ok String.ofList_append

theorem render_append_ok {left right filled more : String} (hleft : ctx.render left = .ok filled)
    (hright : ctx.render right = .ok more) (hseam : ¬OpensBetween left.toList right.toList)
    : ctx.render (left ++ right) = .ok (filled ++ more) := by
  rw [render_append hleft hseam, hright]
  rfl

theorem render_plain {source : String} (h : Plain source.toList)
    : ctx.render source = .ok source := by
  have hliteral : ctx.fillAll (source.toList.map .literal) = .ok source.toList := by
    induction source.toList with
    | nil => rfl
    | cons c cs ih =>
      rw [List.map_cons, fillAll, ih]
      rfl
  rw [render, Piece.scan_plain 0 h, hliteral]
  exact congrArg Except.ok String.ofList_toList

section

variable {mark : String} (hmark : '%' ∉ mark.toList)
include hmark

theorem render_mark : ctx.render mark = .ok mark := render_plain (plain_of_notMem hmark)

theorem render_mark_append {source filled : String} (h : ctx.render source = .ok filled)
    : ctx.render (mark ++ source) = .ok (mark ++ filled) :=
  render_append_ok (render_mark hmark) h fun hseam => hmark (List.mem_of_getLast? hseam.1)

theorem render_append_mark {source filled : String} (hhead : mark.toList.head? ≠ some '{')
    (h : ctx.render source = .ok filled) : ctx.render (source ++ mark) = .ok (filled ++ mark) :=
  render_append_ok h (render_mark hmark) fun hseam => hhead hseam.2

end

end Context

end RunnerKit
