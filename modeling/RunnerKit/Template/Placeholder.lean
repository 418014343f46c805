/-!
This module contains the placeholders of templates. A text is cut from left to right into characters
that stand for themselves and into slots `%{KEY}`; the key of a slot ends at the first closing
brace.
-/

namespace RunnerKit

inductive Piece where
  | literal (c : Char)
  | slot (key : List Char)
  /-- an opener at this byte that nothing closes; the text ends with it -/
  | unclosed (offset : Nat)
  deriving DecidableEq, Repr

namespace Piece

def byteLength : List Char → Nat
  | [] => 0
  | c :: cs => c.utf8Size + byteLength cs

def splitClosing : List Char → Option (List Char × List Char)
  | [] => none
  | c :: cs =>
    if c = '}' then some ([], cs)
    else (splitClosing cs).map fun (key, rest) => (c :: key, rest)

theorem length_of_splitClosing {cs key rest : List Char}
    (h : splitClosing cs = some (key, rest)) : rest.length < cs.length := by
  induction cs generalizing key rest with
  | nil => simp [splitClosing] at h
  | cons c cs ih =>
    simp only [splitClosing] at h
    split at h
    · simp_all
    · simp only [Option.map_eq_some_iff] at h
      obtain ⟨⟨key', rest'⟩, hsplit, heq⟩ := h
      have := ih hsplit
      simp_all
      omega

def scan (offset : Nat) : List Char → List Piece
  | '%' :: '{' :: cs =>
    match h : splitClosing cs with
    | none => [unclosed offset]
    | some (key, rest) =>
      have := length_of_splitClosing h
      slot key :: scan (offset + byteLength key + 3) rest
  | c :: cs => literal c :: scan (offset + c.utf8Size) cs
  | [] => []
termination_by cs => cs.length

end Piece

end RunnerKit
