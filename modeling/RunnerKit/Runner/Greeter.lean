import RunnerKit.Log
import RunnerKit.Runner.Basic
/-!
This module contains the runner that every generated project starts from. It answers one query with
a greeting and sends what is chosen to its output.
-/

namespace RunnerKit

namespace Greeter

def trigger : String := "hello"

def greeting (app : AppName) : Match :=
  .build "Hello" ("Hello from " ++ app.text ++ "!")
    [.icon "document-edit", .kind .exact, .relevance Binary64.one, .subtext "Demo Subtext"]

def action : Action := ⟨"id", "Tooltip", "planetkde"⟩

def matched : Event := { level := .debug, message := "query matched" }

def unmatched : Event := { level := .trace, message := "no match" }

def running : Event := { level := .debug, message := "running action" }

def ended (app : AppName) : Event :=
  { level := .debug, message := "match session ended", fields := [("app", app.text)] }

def answer (app : AppName) (query : Query) : List Match :=
  if query.text = trigger then [greeting app] else []

end Greeter

open Greeter in
def greeter {m : Type → Type} [Monad m] (app : AppName) (output : Output m) (log : Event → m Unit) :
    Runner m where
  find query := do
    log (if query.text = trigger then matched else unmatched)
    return answer app query
  actions := return [action]
  run data actionId := do
    log running
    output.emit data actionId
  teardown := log (ended app)

end RunnerKit
