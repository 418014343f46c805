import Mathlib.Data.List.Infix
import Mathlib.Data.List.Induction
import RunnerKit.Output.LineWriter
import RunnerKit.Proofs.Text.Bytes
/-!
This module contains what a writer of lines leaves in a sink that runs out of room. Whatever it is
told to write, the sink holds the front of it, and where that front stops decides how every choice
ends.
-/

namespace RunnerKit

namespace Sink

def fresh (room : Option Nat) (fault : SinkFault) (flushFault : Option String) : Sink :=
  { room, fault, flushFault }

def Fits (room : Option Nat) (length : Nat) : Prop := ∀ limit ∈ room, length ≤ limit

instance (room : Option Nat) (length : Nat) : Decidable (Fits room length) :=
  inferInstanceAs (Decidable (∀ limit ∈ room, length ≤ limit))

def front (room : Option Nat) (bytes : List UInt8) : List UInt8 := room.elim bytes (bytes.take ·)

section

variable {room : Option Nat} {limit : Nat} {bytes more : List UInt8}

@[simp]
theorem fits_none (length : Nat) : Fits none length := by
  simp [Fits]

@[simp]
theorem fits_some_iff {length : Nat} : Fits (some limit) length ↔ length ≤ limit := by
  simp [Fits]

theorem Fits.of_append (h : Fits room (bytes ++ more).length) : Fits room bytes.length := by
  intro limit hlimit
  have := h limit hlimit
  rw [List.length_append] at this
  omega

@[simp]
theorem front_none (bytes : List UInt8) : front none bytes = bytes := rfl

@[simp]
theorem front_some (limit : Nat) (bytes : List UInt8) : front (some limit) bytes = bytes.take limit :=
  rfl

theorem front_append_of_not_fits (h : ¬Fits room bytes.length)
    : front room (bytes ++ more) = front room bytes := by
  cases room with
  | none => simp at h
  | some limit =>
    rw [fits_some_iff, Nat.not_le] at h
    exact List.take_append_of_le_length h.le

theorem write_of_written {s : Sink} (hwritten : s.written = front s.room bytes) (hmore : more ≠ [])
    : s.write more =
      (if Fits s.room (bytes ++ more).length then .ok () else .error s.fault,
        { s with written := front s.room (bytes ++ more) }) := by
  obtain ⟨room, fault, flushFault, written, flushes⟩ := s
  simp only at hwritten
  subst hwritten
  have hlength : 0 < more.length := List.length_pos_iff.mpr hmore
  cases room with
  | none => simp [write, accepted]
  | some limit =>
    have htaken : limit - (bytes.take limit).length = limit - bytes.length := by
      rw [List.length_take]
      omega
    have hall : (more.take (limit - bytes.length)).length = more.length
        ↔ (bytes ++ more).length ≤ limit := by
      rw [List.length_take, List.length_append]
      omega
    simp only [write, accepted, front_some, fits_some_iff, htaken, hall, List.take_append]

theorem accepted_append_of_eq {s : Sink} {piece : List UInt8} (h : s.accepted piece = piece)
    (more : List UInt8)
    : s.accepted (piece ++ more) =
      piece ++ { s with written := s.written ++ piece }.accepted more := by
  obtain ⟨room, fault, flushFault, written, flushes⟩ := s
  cases room with
  | none => rfl
  | some limit =>
    simp only [accepted, List.take_eq_self_iff] at h
    simp only [accepted, List.take_append, List.length_append, Nat.sub_sub]
    rw [List.take_of_length_le h]

theorem accepted_append_of_lt {s : Sink} {piece : List UInt8}
    (h : (s.accepted piece).length < piece.length) (more : List UInt8)
    : s.accepted (piece ++ more) = s.accepted piece := by
  obtain ⟨room, fault, flushFault, written, flushes⟩ := s
  cases room with
  | none => exact absurd h (Nat.lt_irrefl _)
  | some limit =>
    simp only [accepted, List.length_take] at h ⊢
    exact List.take_append_of_le_length (by omega)

theorem accepted_eq_or_lt (s : Sink) (piece : List UInt8)
    : s.accepted piece = piece ∨ (s.accepted piece).length < piece.length := by
  obtain ⟨room, fault, flushFault, written, flushes⟩ := s
  cases room with
  | none => exact Or.inl rfl
  | some limit =>
    simp only [accepted, List.take_eq_self_iff, List.length_take]
    omega

theorem writeAll_eq_write (s : Sink) (pieces : List (List UInt8))
    : s.writeAll pieces = s.write pieces.flatten := by
  induction pieces generalizing s with
  | nil =>
    obtain ⟨room, fault, flushFault, written, flushes⟩ := s
    cases room <;> simp [writeAll, write, accepted]
  | cons piece pieces ih =>
    rw [writeAll, List.flatten_cons]
    cases s.accepted_eq_or_lt piece with
    | inl h =>
      simp only [write, h, accepted_append_of_eq h, if_true, ih, List.length_append,
        Nat.add_left_cancel_iff, List.append_assoc]
    | inr h =>
      simp only [write, accepted_append_of_lt h, List.length_append]
      rw [if_neg (by omega), if_neg (by omega)]

end

end Sink

namespace LineWriter

open Sink (Fits front)

def line (choice : String × String) : List UInt8 := utf8Bytes (choice.1 ++ " " ++ choice.2 ++ "\n")

def text (choices : List (String × String)) : List UInt8 := choices.flatMap line

def afterAll (w : LineWriter) (choices : List (String × String)) : LineWriter :=
  choices.foldl (fun w choice => (w.emit choice.1 choice.2).2) w

def completed (room : Option Nat) (choices : List (String × String)) : Nat :=
  choices.inits.tail.countP fun front => decide (Fits room (text front).length)

/--
How a choice ends whose line comes after some bytes. Once a sink that panics has been full, its lock
is lost.
-/
inductive Ends (sink : Sink) (before line : List UInt8) : Outcome → Prop where
  | done (hfits : Fits sink.room (before ++ line).length) (hflush : sink.flushFault = none)
    : Ends sink before line .done
  | unflushed {cause : String} (hfits : Fits sink.room (before ++ line).length)
      (hflush : sink.flushFault = some cause)
    : Ends sink before line (.failed (.failure (.output cause)))
  | refused {cause : String} (hfull : ¬Fits sink.room (before ++ line).length)
      (hfault : sink.fault = .error cause)
    : Ends sink before line (.failed (.failure (.output cause)))
  | untaken (hfull : ¬Fits sink.room (before ++ line).length) (hfault : sink.fault = .takesNothing)
    : Ends sink before line (.failed (.failure (.output "failed to write whole buffer")))
  | aborted (hbefore : Fits sink.room before.length)
      (hfull : ¬Fits sink.room (before ++ line).length) (hfault : sink.fault = .panics)
    : Ends sink before line .aborted
  | poisoned (hbefore : ¬Fits sink.room before.length) (hfault : sink.fault = .panics)
    : Ends sink before line (.failed (.failure (.output "output lock poisoned")))

structure Accounts (sink : Sink) (choices : List (String × String)) (w : LineWriter) : Prop where
  sink_eq : w.sink =
    { sink with written := front sink.room (text choices), flushes := completed sink.room choices }
  poisoned_eq : w.poisoned = decide (sink.fault = .panics ∧ ¬Fits sink.room (text choices).length)

variable {sink : Sink} {choices : List (String × String)} {w : LineWriter}

theorem line_ne_nil (choice : String × String) : line choice ≠ [] := by
  have hend : utf8Bytes "\n" ≠ [] := by
    rw [utf8Bytes_eq_flatMap]
    decide
  rw [line, utf8Bytes_append]
  exact List.append_ne_nil_of_right_ne_nil _ hend

theorem flatten_pieces (choice : String × String)
    : (pieces choice.1 choice.2).flatten = line choice := by
  simp [pieces, line, utf8Bytes_append]

@[simp]
theorem text_concat (choices : List (String × String)) (choice : String × String)
    : text (choices ++ [choice]) = text choices ++ line choice := by
  simp [text]

theorem tail_inits_concat (choices : List (String × String)) (choice : String × String)
    : (choices ++ [choice]).inits.tail = choices.inits.tail ++ [choices ++ [choice]] := by
  have hinits : choices.inits ≠ [] := by
    cases choices <;> simp
  rw [List.inits_append, List.tail_append_of_ne_nil hinits]
  rfl

theorem completed_concat (room : Option Nat) (choices : List (String × String))
    (choice : String × String)
    : completed room (choices ++ [choice]) =
      completed room choices + if Fits room (text choices ++ line choice).length then 1 else 0 := by
  rw [completed, tail_inits_concat, List.countP_append, List.countP_singleton, text_concat]
  simp [completed]

theorem Ends.unique {before line : List UInt8} {outcome outcome' : Outcome}
    (h : Ends sink before line outcome) (h' : Ends sink before line outcome')
    : outcome = outcome' := by
  have hbefore : Fits sink.room (before ++ line).length → Fits sink.room before.length :=
    Fits.of_append
  cases h with
  | done hfits hflush => cases h' <;> simp_all
  | unflushed hfits hflush => cases h' <;> simp_all
  | refused hfull hfault => cases h' <;> simp_all
  | untaken hfull hfault => cases h' <;> simp_all
  | aborted hbefore hfull hfault => cases h' <;> simp_all
  | poisoned hbefore hfault => cases h' <;> simp_all

theorem accounts_nil (room : Option Nat) (fault : SinkFault) (flushFault : Option String)
    : Accounts (.fresh room fault flushFault) [] { sink := .fresh room fault flushFault } where
  sink_eq := by cases room <;> simp [Sink.fresh, text, completed]
  poisoned_eq := by cases room <;> simp [Sink.fresh, text]

theorem Accounts.emit_of_lost (h : Accounts sink choices w) (hfault : sink.fault = .panics)
    (hfull : ¬Fits sink.room (text choices).length) (choice : String × String)
    : w.emit choice.1 choice.2 = (.failed (.failure (.output "output lock poisoned")), w) := by
  rw [LineWriter.emit, h.poisoned_eq, if_pos (decide_eq_true ⟨hfault, hfull⟩)]
  rfl

theorem Accounts.emit (h : Accounts sink choices w) (choice : String × String)
    : Ends sink (text choices) (line choice) (w.emit choice.1 choice.2).1 ∧
      Accounts sink (choices ++ [choice]) (w.emit choice.1 choice.2).2 := by
  -- A line that is written in full is flushed. One that is not leaves the sink full, and takes the
  -- lock with it if the sink panics.
  have hemit := h.emit_of_lost
  obtain ⟨room, fault, flushFault, written, flushes⟩ := sink
  obtain ⟨s, poisoned⟩ := w
  obtain ⟨rfl, rfl⟩ := h
  have htext := text_concat choices choice
  have hcompleted := completed_concat room choices choice
  by_cases hpanicked : fault = .panics ∧ ¬Fits room (text choices).length
  case pos =>
    have hfull : ¬Fits room (text choices ++ line choice).length := mt Fits.of_append hpanicked.2
    rw [hemit hpanicked.1 hpanicked.2]
    refine ⟨.poisoned hpanicked.2 hpanicked.1, ?_, ?_⟩
    . rw [htext, Sink.front_append_of_not_fits hpanicked.2, hcompleted, if_neg hfull, Nat.add_zero]
    . rw [htext, decide_eq_true hpanicked, decide_eq_true ⟨hpanicked.1, hfull⟩]
  case neg =>
    have hwrite := Sink.write_of_written (s := ⟨room, fault, flushFault, front room (text choices),
      completed room choices⟩) rfl (line_ne_nil choice)
    rw [LineWriter.emit, decide_eq_false hpanicked, if_neg Bool.false_ne_true,
      Sink.writeAll_eq_write, flatten_pieces, hwrite]
    rw [← htext] at hcompleted ⊢
    by_cases hfits : Fits room (text (choices ++ [choice])).length
    case pos =>
      have hkept : ¬(fault = .panics ∧ ¬Fits room (text (choices ++ [choice])).length) :=
        fun hfull => hfull.2 hfits
      rw [if_pos hfits] at hcompleted ⊢
      rw [htext] at hfits
      cases flushFault with
      | none => exact ⟨.done hfits rfl, by rw [hcompleted]; rfl, (decide_eq_false hkept).symm⟩
      | some cause =>
        exact ⟨.unflushed hfits rfl, by rw [hcompleted]; rfl, (decide_eq_false hkept).symm⟩
    case neg =>
      have hlost : SinkFault.panics = .panics ∧ ¬Fits room (text (choices ++ [choice])).length :=
        ⟨rfl, hfits⟩
      rw [if_neg hfits] at hcompleted ⊢
      rw [htext] at hfits
      cases fault with
      | error cause => exact ⟨.refused hfits rfl, by rw [hcompleted]; rfl, by simp⟩
      | takesNothing => exact ⟨.untaken hfits rfl, by rw [hcompleted]; rfl, by simp⟩
      | panics =>
        have hbefore : Fits room (text choices).length := by simpa using hpanicked
        exact ⟨.aborted hbefore hfits rfl, by rw [hcompleted]; rfl, (decide_eq_true hlost).symm⟩

theorem accounts_afterAll (room : Option Nat) (fault : SinkFault) (flushFault : Option String)
    (choices : List (String × String))
    : Accounts (.fresh room fault flushFault) choices
        (afterAll { sink := .fresh room fault flushFault } choices) := by
  induction choices using List.reverseRecOn with
  | nil => exact accounts_nil room fault flushFault
  | append_singleton choices choice ih =>
    rw [afterAll, List.foldl_concat]
    exact (ih.emit choice).2

theorem emit_afterAll_fresh (room : Option Nat) (fault : SinkFault) (flushFault : Option String)
    (choices : List (String × String))
    : let sink := Sink.fresh room fault flushFault
      let w := afterAll { sink } choices
      w.sink.written = front room (text choices) ∧
      w.sink.flushes = completed room choices ∧
      (∀ (choice : String × String) (outcome : Outcome), (w.emit choice.1 choice.2).1 = outcome ↔
        Ends sink (text choices) (line choice) outcome) ∧
      (fault = .panics → ¬Fits room (text choices).length →
        ∀ choice : String × String,
          w.emit choice.1 choice.2 =
            (.failed (.failure (.output "output lock poisoned")), w)) := by
  intro sink w
  have haccounts : Accounts sink choices w := accounts_afterAll room fault flushFault choices
  refine ⟨?_, ?_, ?_, haccounts.emit_of_lost⟩
  . rw [haccounts.sink_eq]
    rfl
  . rw [haccounts.sink_eq]
    rfl
  . intro choice outcome
    have hends := (haccounts.emit choice).1
    exact ⟨fun h => h ▸ hends, hends.unique⟩

end LineWriter

end RunnerKit
