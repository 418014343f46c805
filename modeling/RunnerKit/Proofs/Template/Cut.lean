import RunnerKit.Template.Placeholder
/-!
This module contains the one way to cut a text at its placeholders, from left to right.
-/

namespace RunnerKit

def Plain (cs : List Char) : Prop := ¬['%', '{'] <:+: cs

namespace Cut

@[ext]
structure Slot where
  literal : List Char
  key : List Char
  plain : Plain literal
  unbraced : '}' ∉ key

inductive Ending where
  | closed (literal : List Char) (plain : Plain literal)
  /-- the literal text runs to an opener that nothing closes -/
  | unclosed (literal rest : List Char) (plain : Plain literal) (unbraced : '}' ∉ rest)

def Slot.text (slot : Slot) : List Char :=
  slot.literal ++ '%' :: '{' :: (slot.key ++ ['}'])

def Ending.text : Ending → List Char
  | .closed literal _ => literal
  | .unclosed literal rest _ _ => literal ++ '%' :: '{' :: rest

end Cut

@[ext]
structure Cut where
  slots : List Cut.Slot
  ending : Cut.Ending

def Cut.text (d : Cut) : List Char :=
  d.slots.flatMap Slot.text ++ d.ending.text

theorem Plain.nil : Plain [] := by
  simp [Plain]

theorem Plain.of_cons {c : Char} {cs : List Char} (h : Plain (c :: cs)) : Plain cs :=
  fun hopener => h (hopener.trans (List.infix_cons List.infix_rfl))

theorem Plain.cons {c : Char} {cs : List Char} (h : Plain cs)
    (hopener : ∀ rest, c = '%' → cs = '{' :: rest → False) : Plain (c :: cs) := by
  rintro (hwithin : _ <:+: _)
  rw [List.infix_cons_iff] at hwithin
  cases hwithin with
  | inl hfront =>
    simp only [List.cons_prefix_cons] at hfront
    obtain ⟨hc, hrest⟩ := hfront
    obtain ⟨rest, hrest⟩ := hrest
    exact hopener rest hc.symm (by simpa using hrest.symm)
  | inr hwithin => exact h hwithin

theorem Plain.ne_append_opener {cs left right : List Char} (h : Plain cs)
    : cs ≠ left ++ '%' :: '{' :: right := by
  rintro rfl
  exact h ⟨left, right, by simp⟩

theorem Plain.cons_append_ne {c : Char} {cs right right' : List Char} (h : Plain (c :: cs))
    : c :: cs ++ '%' :: '{' :: right ≠ '%' :: '{' :: right' := by
  intro heq
  cases cs with
  | nil =>
    -- In `%%{` it is the second character that opens, since the first is no brace.
    simp at heq
  | cons d cs =>
    simp only [List.cons_append, List.cons.injEq] at heq
    have hopener : c :: d :: cs = [] ++ '%' :: '{' :: cs := by rw [heq.1, heq.2.1]; rfl
    exact h.ne_append_opener hopener

theorem Plain.append_opener_inj {left left' right right' : List Char} (h : Plain left)
    (h' : Plain left') (heq : left ++ '%' :: '{' :: right = left' ++ '%' :: '{' :: right')
    : left = left' ∧ right = right' := by
  induction left generalizing left' with
  | nil =>
    cases left' with
    | nil => simpa using heq
    | cons c' left' => exact absurd heq.symm h'.cons_append_ne
  | cons c left ih =>
    cases left' with
    | nil => exact absurd heq h.cons_append_ne
    | cons c' left' =>
      simp only [List.cons_append, List.cons.injEq] at heq
      have hinj := ih h.of_cons h'.of_cons heq.2
      exact ⟨by rw [heq.1, hinj.1], hinj.2⟩

namespace Piece

theorem splitClosing_eq_none_iff {cs : List Char} : splitClosing cs = none ↔ '}' ∉ cs := by
  induction cs with
  | nil => simp [splitClosing]
  | cons c cs ih =>
    simp only [splitClosing]
    split
    . next h => simp [h]
    . next h => simp [ih, Ne.symm h]

theorem splitClosing_eq_some_iff {cs key rest : List Char}
    : splitClosing cs = some (key, rest) ↔ cs = key ++ '}' :: rest ∧ '}' ∉ key := by
  induction cs generalizing key with
  | nil => simp [splitClosing]
  | cons c cs ih =>
    simp only [splitClosing]
    split
    . next h =>
      cases key with
      | nil => simp [h]
      | cons k key =>
        simp only [h, List.cons_append, List.cons.injEq, List.mem_cons]
        grind
    . next h =>
      cases key with
      | nil => simp [h]
      | cons k key =>
        simp only [Option.map_eq_some_iff, Prod.exists, List.cons_append, List.cons.injEq,
          List.mem_cons]
        grind

end Piece

namespace Cut

theorem Slot.text_append (slot : Slot) (rest : List Char)
    : slot.text ++ rest = slot.literal ++ '%' :: '{' :: (slot.key ++ '}' :: rest) := by
  simp [Slot.text]

theorem Slot.text_append_inj {slot slot' : Slot} {rest rest' : List Char}
    (h : slot.text ++ rest = slot'.text ++ rest') : slot = slot' ∧ rest = rest' := by
  rw [text_append, text_append] at h
  obtain ⟨hliteral, h⟩ := slot.plain.append_opener_inj slot'.plain h
  have hkey : Piece.splitClosing (slot.key ++ '}' :: rest) = some (slot'.key, rest') :=
    Piece.splitClosing_eq_some_iff.mpr ⟨h, slot'.unbraced⟩
  rw [Piece.splitClosing_eq_some_iff.mpr ⟨rfl, slot.unbraced⟩] at hkey
  simp only [Option.some.injEq, Prod.mk.injEq] at hkey
  exact ⟨Slot.ext hliteral hkey.1, hkey.2⟩

theorem Ending.text_ne_slot_text_append (ending : Ending) (slot : Slot) (rest : List Char)
    : ending.text ≠ slot.text ++ rest := by
  intro h
  rw [Slot.text_append] at h
  cases ending with
  | closed literal plain => exact plain.ne_append_opener h
  | unclosed literal tail plain unbraced =>
    have htail := (plain.append_opener_inj slot.plain h).2
    simp [htail] at unbraced

theorem Ending.text_injective {ending ending' : Ending} (h : ending.text = ending'.text)
    : ending = ending' := by
  cases ending with
  | closed literal plain =>
    cases ending' with
    | closed literal' plain' =>
      have hliteral : literal = literal' := h
      subst hliteral
      rfl
    | unclosed => exact absurd h plain.ne_append_opener
  | unclosed literal rest plain unbraced =>
    cases ending' with
    | closed _ plain' => exact absurd h.symm plain'.ne_append_opener
    | unclosed literal' rest' plain' unbraced' =>
      obtain ⟨rfl, rfl⟩ := plain.append_opener_inj plain' h
      rfl

@[simp]
theorem text_nil (ending : Ending) : text ⟨[], ending⟩ = ending.text := rfl

@[simp]
theorem text_cons (slot : Slot) (slots : List Slot) (ending : Ending)
    : text ⟨slot :: slots, ending⟩ = slot.text ++ text ⟨slots, ending⟩ := by
  simp [text]

theorem text_injective {d d' : Cut} (h : d.text = d'.text) : d = d' := by
  obtain ⟨slots, ending⟩ := d
  obtain ⟨slots', ending'⟩ := d'
  induction slots generalizing slots' with
  | nil =>
    cases slots' with
    | nil =>
      have hending : ending = ending' := Ending.text_injective h
      rw [hending]
    | cons slot' slots' =>
      rw [text_nil, text_cons] at h
      exact absurd h (ending.text_ne_slot_text_append slot' _)
  | cons slot slots ih =>
    cases slots' with
    | nil =>
      rw [text_nil, text_cons] at h
      exact absurd h.symm (ending'.text_ne_slot_text_append slot _)
    | cons slot' slots' =>
      rw [text_cons, text_cons] at h
      obtain ⟨rfl, hrest⟩ := Slot.text_append_inj h
      cases ih slots' hrest
      rfl

theorem exists_text_eq_cons (d : Cut) {c : Char}
    (hopener : ∀ rest, c = '%' → d.text = '{' :: rest → False)
    : ∃ d' : Cut, d'.text = c :: d.text := by
  -- The character goes into the first literal, which may be that of the end.
  obtain ⟨slots, ending⟩ := d
  cases slots with
  | nil =>
    cases ending with
    | closed literal plain =>
      exact ⟨⟨[], .closed (c :: literal) (plain.cons hopener)⟩, rfl⟩
    | unclosed literal rest plain unbraced =>
      have hplain : Plain (c :: literal) := by
        apply plain.cons
        intro rest hc hliteral
        exact hopener _ hc (by simp [Ending.text, hliteral]; rfl)
      exact ⟨⟨[], .unclosed (c :: literal) rest hplain unbraced⟩, rfl⟩
  | cons slot slots =>
    have hplain : Plain (c :: slot.literal) := by
      apply slot.plain.cons
      intro rest hc hliteral
      exact hopener _ hc (by simp [Slot.text, hliteral]; rfl)
    refine ⟨⟨⟨c :: slot.literal, slot.key, hplain, slot.unbraced⟩ :: slots, ending⟩, ?_⟩
    simp [Slot.text]

theorem exists_text_eq (cs : List Char) : ∃ d : Cut, d.text = cs := by
  induction 0, cs using Piece.scan.induct with
  | case1 offset cs hsplit =>
    rw [Piece.splitClosing_eq_none_iff] at hsplit
    exact ⟨⟨[], .unclosed [] cs .nil hsplit⟩, rfl⟩
  | case2 offset cs key rest hsplit _ ih =>
    obtain ⟨hcs, hkey⟩ := Piece.splitClosing_eq_some_iff.mp hsplit
    obtain ⟨d, hd⟩ := ih
    refine ⟨⟨⟨[], key, .nil, hkey⟩ :: d.slots, d.ending⟩, ?_⟩
    simp [Slot.text, hcs, ← hd]
  | case3 offset c cs hopener ih =>
    obtain ⟨d, hd⟩ := ih
    rw [← hd] at hopener ⊢
    exact d.exists_text_eq_cons hopener
  | case4 => exact ⟨⟨[], .closed [] .nil⟩, rfl⟩

end Cut
end RunnerKit
