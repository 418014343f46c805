import Mathlib.Algebra.GroupWithZero.Nat
import RunnerKit.Proofs.Output.LineWriter
import RunnerKit.Proofs.Text.Order
/-!
This module contains what a reader of lines finds in a sink that takes everything. The writer ends
every choice with a line break but writes the choice itself as it is, so that the reader finds the
choices apart only if none of them brings a line break of its own.
-/

namespace RunnerKit

def newline : UInt8 := 10

theorem length_splitOn {α : Type} [DecidableEq α] (a : α) (xs : List α)
    : (xs.splitOn a).length = xs.count a + 1 := by
  induction xs with
  | nil => rfl
  | cons x xs ih =>
    rw [List.splitOn_cons_eq_if_modifyHead, List.count_cons]
    by_cases hx : (x == a) = true
    . rw [if_pos hx, if_pos hx, List.length_cons, ih]
    . rw [if_neg hx, if_neg hx, List.length_modifyHead, ih, Nat.add_zero]

theorem count_newline_utf8EncodeChar (c : Char)
    : (String.utf8EncodeChar c).count newline = [c].count '\n' := by
  by_cases hc : c = '\n'
  case pos =>
    rw [hc]
    decide
  case neg =>
    have hbyte : newline ∉ String.utf8EncodeChar c := fun hmem =>
      hc (Char.toNat_inj.mp (@toNat_eq_of_mem_utf8EncodeChar 10 c (by decide) hmem))
    rw [List.count_eq_zero.mpr hbyte, List.count_singleton, if_neg (by simpa using hc)]

theorem count_newline_utf8Bytes (s : String)
    : (utf8Bytes s).count newline = s.toList.count '\n' := by
  rw [utf8Bytes_eq_flatMap]
  induction s.toList with
  | nil => rfl
  | cons c cs ih =>
    rw [List.flatMap_cons, List.count_append, ih, count_newline_utf8EncodeChar, ← List.count_append,
      List.singleton_append]

namespace LineWriter

def entry (choice : String × String) : List UInt8 := utf8Bytes (choice.1 ++ " " ++ choice.2)

def breaks (choice : String × String) : Nat := (choice.1.toList ++ choice.2.toList).count '\n'

variable {choices : List (String × String)}

theorem line_eq_entry_concat (choice : String × String)
    : line choice = entry choice ++ [newline] := by
  rw [line, utf8Bytes_append, entry, utf8Bytes_eq_flatMap "\n"]
  rfl

theorem count_newline_entry (choice : String × String)
    : (entry choice).count newline = breaks choice := by
  simp [entry, count_newline_utf8Bytes, breaks]

theorem splitOn_text (choices : List (String × String))
    : (text choices).splitOn newline =
      choices.flatMap (fun choice => (entry choice).splitOn newline) ++ [[]] := by
  induction choices with
  | nil => rfl
  | cons choice choices ih =>
    have htext : text (choice :: choices) = entry choice ++ newline :: text choices := by
      rw [text, List.flatMap_cons, line_eq_entry_concat, List.append_assoc, List.singleton_append,
        text]
    rw [htext, List.splitOn_append_cons_self, ih, List.flatMap_cons, List.append_assoc]

theorem length_splitOn_text (choices : List (String × String))
    : ((text choices).splitOn newline).length =
      choices.length + (choices.map breaks).sum + 1 := by
  have hlines : (choices.flatMap fun choice => (entry choice).splitOn newline).length =
      choices.length + (choices.map breaks).sum := by
    induction choices with
    | nil => rfl
    | cons choice choices ih =>
      rw [List.flatMap_cons, List.length_append, ih, length_splitOn, count_newline_entry,
        List.map_cons, List.sum_cons, List.length_cons]
      omega
  rw [splitOn_text, List.length_append, hlines, List.length_singleton]

theorem splitOn_text_eq_iff
    : (text choices).splitOn newline = choices.map entry ++ [[]] ↔
      ∀ choice ∈ choices, breaks choice = 0 := by
  constructor
  . intro h
    have hlength := congrArg List.length h
    rw [length_splitOn_text, List.length_append, List.length_map, List.length_singleton] at hlength
    have hsum : (choices.map breaks).sum = 0 := by omega
    exact fun choice hchoice =>
      (List.sum_eq_zero_iff_forall_eq_nat.mp hsum) _ (List.mem_map_of_mem hchoice)
  . intro h
    rw [splitOn_text]
    congr 1
    rw [← List.flatMap_singleton' (choices.map entry), List.flatMap_map]
    apply List.flatMap_congr
    intro choice hchoice
    have hentry := count_newline_entry choice
    rw [h choice hchoice, List.count_eq_zero] at hentry
    exact List.splitOn_eq_singleton hentry

theorem written_afterAll_unlimited (fault : SinkFault) (choices : List (String × String))
    : (afterAll { sink := .fresh none fault none } choices).sink.written = text choices := by
  rw [(accounts_afterAll none fault none choices).sink_eq]
  rfl

theorem splitOn_written_afterAll (fault : SinkFault) (choices : List (String × String))
    : let w := afterAll { sink := .fresh none fault none } choices
      (∀ choice : String × String, (w.emit choice.1 choice.2).1 = .done) ∧
      w.sink.written.splitOn newline =
        choices.flatMap (fun choice => (entry choice).splitOn newline) ++ [[]] ∧
      (w.sink.written.splitOn newline).length =
        choices.length + (choices.map breaks).sum + 1 ∧
      (w.sink.written.splitOn newline = choices.map entry ++ [[]] ↔
        ∀ choice ∈ choices, '\n' ∉ choice.1.toList ∧ '\n' ∉ choice.2.toList) := by
  intro w
  have haccounts : Accounts (.fresh none fault none) choices w :=
    accounts_afterAll none fault none choices
  rw [written_afterAll_unlimited]
  refine ⟨?_, splitOn_text choices, length_splitOn_text choices, ?_⟩
  . intro choice
    exact (haccounts.emit choice).1.unique (.done (Sink.fits_none _) rfl)
  . rw [splitOn_text_eq_iff]
    simp only [breaks, List.count_eq_zero, List.mem_append, not_or]

theorem not_splitOn_written_eq_entries
    : ¬∀ choices : List (String × String),
        (afterAll { sink := .fresh none (.error "") none } choices).sink.written.splitOn newline =
          choices.map entry ++ [[]] := by
  intro h
  have hlines := h [("a\nb", "c")]
  rw [written_afterAll_unlimited, splitOn_text_eq_iff] at hlines
  exact absurd (hlines _ List.mem_cons_self) (by decide)

end LineWriter

end RunnerKit
