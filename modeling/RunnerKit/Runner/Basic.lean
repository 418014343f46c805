import RunnerKit.Match.Basic
import RunnerKit.Output.Basic
/-!
This module contains what the search host asks of a runner.
-/

namespace RunnerKit

structure Runner (m : Type → Type) where
  find : Query → m (List Match)
  actions : m (List Action)
  /-- does what the chosen match and action stand for -/
  run : (data actionId : String) → m Outcome
  /-- ends a search session -/
  teardown : m Unit

end RunnerKit
