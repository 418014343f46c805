import RunnerKit.Error
/-!
This module contains what a runner asks of the place where chosen matches go.
-/

namespace RunnerKit

inductive Outcome where
  | done
  | failed (e : Error)
  | aborted
  deriving DecidableEq, Repr

structure Output (m : Type → Type) where
  emit : (data actionId : String) → m Outcome

namespace Output

def lift {m n : Type → Type} (f : {α : Type} → m α → n α) (output : Output m) : Output n where
  emit data actionId := f (output.emit data actionId)

end Output

structure RunLog where
  calls : List (String × String) := []
  deriving DecidableEq, Repr, Inhabited

def RunLog.output : Output (StateM RunLog) where
  emit data actionId := fun log => (.done, { calls := log.calls ++ [(data, actionId)] })

end RunnerKit
