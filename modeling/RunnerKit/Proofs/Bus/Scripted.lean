import RunnerKit.Proofs.Bus.Session
import RunnerKit.Runner.Scripted
/-!
This module contains what a search host gets from a runner whose answers are written down.
-/

namespace RunnerKit

open Bus (Request Reply)

namespace Script

variable (script : Script)

inductive Answers : Request → Reply → Prop where
  | found {query : String} {records : List WireMatch}
      (h : List.Forall₂ WireMatch.StandsFor records ((script.answers.lookup query).getD []))
    : Answers (.find query) (.found records)
  | actions {records : List WireAction}
      (h : List.Forall₂ WireAction.StandsFor records script.actions)
    : Answers .actions (.actions records)
  | failed {data actionId : String} {e : Error} (h : script.failures.lookup actionId = some e)
    : Answers (.run data actionId) (.fault (.failed e.message))
  | done {data actionId : String} (h : script.failures.lookup actionId = none)
    : Answers (.run data actionId) .nothing
  | ended : Answers .teardown .nothing

/--
The choice that is kept of a request. One that fails gets nowhere.
-/
def kept? : Request → Option (String × String)
  | .run data actionId =>
    if (script.failures.lookup actionId).isNone then some (data, actionId) else none
  | .find _ | .actions | .teardown => none

variable {σ : Type} (log : Event → StateM σ Unit)

theorem answers_reply (request : Request) (s : RunLog × σ)
    : script.Answers request
        (request.reply (Bus.logBeside log) (script.runner Bus.keptOutput) s).1 ∧
      (request.reply (Bus.logBeside log) (script.runner Bus.keptOutput) s).2.1.calls =
        s.1.calls ++ (script.kept? request).toList := by
  cases request with
  | find query =>
    exact ⟨.found (WireMatch.forall₂_standsFor _), (List.append_nil s.1.calls).symm⟩
  | actions => exact ⟨.actions (WireAction.forall₂_standsFor _), (List.append_nil s.1.calls).symm⟩
  | teardown => exact ⟨.ended, (List.append_nil s.1.calls).symm⟩
  | run data actionId =>
    simp only [Request.reply, Bus.replyRun, runner, kept?]
    cases h : script.failures.lookup actionId with
    | some e => exact ⟨.failed h, (List.append_nil s.1.calls).symm⟩
    | none => exact ⟨.done h, rfl⟩

theorem answers_conversation (objectPath : String) (requests : List Request) (start : RunLog × σ)
    : let ended := Bus.conversation (Bus.logBeside log) (script.runner Bus.keptOutput) objectPath
        requests start
      List.Forall₂ script.Answers requests ended.1 ∧
        ended.2.1.calls = start.1.calls ++ requests.filterMap script.kept? :=
  Bus.conversation_of_steps (answers_reply script log) objectPath requests start

end Script

end RunnerKit
