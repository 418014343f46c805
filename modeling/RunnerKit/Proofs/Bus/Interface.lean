import Mathlib.Data.List.Forall2
import RunnerKit.Bus.Interface
import RunnerKit.Proofs.Match.Wire
/-!
This module contains what the bus object makes of the calls that a search host sends it. Each goes
to the runner, and what the runner answers goes back in the shape that it has on the bus.
-/

namespace RunnerKit

structure WireAction.StandsFor (w : WireAction) (a : Action) : Prop where
  id_eq : w.id = a.id
  text_eq : w.text = a.text
  icon_eq : w.icon = a.icon

namespace Bus

inductive Request where
  | find (query : String)
  | actions
  | run (data actionId : String)
  | teardown

def Request.call (objectPath : String) : Request → MethodCall
  | .find query => ⟨objectPath, runnerInterface, "Match", [query]⟩
  | .actions => ⟨objectPath, runnerInterface, "Actions", []⟩
  | .run data actionId => ⟨objectPath, runnerInterface, "Run", [data, actionId]⟩
  | .teardown => ⟨objectPath, runnerInterface, "Teardown", []⟩

section

variable {m : Type → Type} [Monad m] (log : Event → m Unit) (runner : Runner m)

def Request.reply : Request → m Reply
  | .find query => replyMatch log runner query
  | .actions => replyActions runner
  | .run data actionId => replyRun log runner data actionId
  | .teardown => replyTeardown runner

theorem reply_eq_replyMember {objectPath : String} {call : MethodCall}
    (hpath : call.path = objectPath) (hinterface : call.interface = runnerInterface)
    : Bus.reply log runner objectPath call = replyMember log runner call.member call.arguments := by
  have hpeer : runnerInterface ≠ peerInterface := by decide
  -- A call that is neither for another object nor for the peer gets to the interface.
  unfold Bus.reply
  rw [hpath, hinterface]
  simp [hpeer]

theorem reply_call (objectPath : String) (request : Request)
    : Bus.reply log runner objectPath (request.call objectPath) = request.reply log runner := by
  cases request <;> exact reply_eq_replyMember log runner rfl rfl

end

section

variable {σ : Type} (log : Event → StateM σ Unit) (runner : Runner (StateM σ))

theorem reply_find (query : String) (state : σ)
    : ((Request.find query).reply log runner state).1 =
        .found ((runner.find ⟨query⟩ state).1.map .ofMatch) := rfl

theorem reply_actions (state : σ)
    : (Request.actions.reply log runner state).1 =
        .actions ((runner.actions state).1.map .ofAction) := rfl

end

end Bus

theorem WireMatch.forall₂_standsFor (found : List Match)
    : List.Forall₂ StandsFor (found.map ofMatch) found := by
  rw [List.forall₂_map_left_iff, List.forall₂_same]
  intro m _
  exact standsFor_ofMatch m

theorem WireAction.forall₂_standsFor (actions : List Action)
    : List.Forall₂ StandsFor (actions.map ofAction) actions := by
  rw [List.forall₂_map_left_iff, List.forall₂_same]
  intro a _
  exact ⟨rfl, rfl, rfl⟩

theorem WireMatch.round_trip_eq_iff {m : Match}
    : (toMatch (ofMatch m)).SaysSame m ∧ (toMatch (ofMatch m)).kind = m.kind ↔
        m.kind ∉ [.other 0, .other 10, .other 30, .other 70, .other 100] := by
  rw [← MatchKind.ofCode_code_eq_iff]
  constructor
  . rintro ⟨_, hkind⟩
    exact hkind
  . intro hkind
    exact ⟨saysSame_toMatch_ofMatch m, hkind⟩

open Bus in
theorem WireMatch.loses_only_spelling
    : (∀ w : WireMatch, (toMatch w).kind = .ofCode w.category) ∧
      (∀ m : Match, (toMatch (ofMatch m)).SaysSame m ∧
        (toMatch (ofMatch m)).kind = .ofCode m.kind.code) ∧
      (∀ m n : Match, ofMatch m = ofMatch n ↔ m.SaysSame n ∧ m.kind.code = n.kind.code) ∧
      (∀ m : Match, (toMatch (ofMatch m)).SaysSame m ∧ (toMatch (ofMatch m)).kind = m.kind ↔
        m.kind ∉ [.other 0, .other 10, .other 30, .other 70, .other 100]) ∧
      (∀ m : Match, (ofMatch m).StandsFor m) ∧
      ∀ {σ : Type} (log : Event → StateM σ Unit) (runner : Runner (StateM σ)) (objectPath : String)
        (state : σ),
        (∀ query, ∃ records,
          (reply log runner objectPath ((Request.find query).call objectPath) state).1 =
            .found records ∧
          List.Forall₂ WireMatch.StandsFor records (runner.find ⟨query⟩ state).1) ∧
        ∃ records,
          (reply log runner objectPath (Request.actions.call objectPath) state).1 =
            .actions records ∧
          List.Forall₂ WireAction.StandsFor records (runner.actions state).1 := by
  refine ⟨fun w => rfl, fun m => ⟨saysSame_toMatch_ofMatch m, rfl⟩, fun m n => ofMatch_eq_iff,
    fun m => round_trip_eq_iff, standsFor_ofMatch, ?_⟩
  intro σ log runner objectPath state
  constructor
  . intro query
    refine ⟨_, ?_, WireMatch.forall₂_standsFor _⟩
    rw [reply_call, reply_find]
  . refine ⟨_, ?_, WireAction.forall₂_standsFor _⟩
    rw [reply_call, reply_actions]

end RunnerKit
