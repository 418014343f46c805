import RunnerKit.Runner.Basic
/-!
This module contains a runner whose answers are written down beforehand.
-/

namespace RunnerKit

structure Script where
  answers : List (String × List Match) := []
  actions : List Action := []
  /-- the actions that fail, with their errors -/
  failures : List (String × Error) := []

def Script.runner {m : Type → Type} [Monad m] (script : Script) (output : Output m) : Runner m where
  find query := return (script.answers.lookup query.text).getD []
  actions := return script.actions
  run data actionId :=
    match script.failures.lookup actionId with
    | some e => return .failed e
    | none => output.emit data actionId
  teardown := return ()

end RunnerKit
