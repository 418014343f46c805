import RunnerKit.Log
import RunnerKit.Match.Wire
import RunnerKit.Runner.Basic
/-!
This module contains the bus object that speaks for a runner: which calls it understands and what it
replies.
-/

namespace RunnerKit

namespace Bus

inductive CallFault where
  | unknownObject
  | unknownInterface
  | unknownMethod
  | wrongArguments
  | failed (message : String)
  deriving DecidableEq, Repr

def CallFault.name : CallFault → String
  | .unknownObject => "org.freedesktop.DBus.Error.UnknownObject"
  | .unknownInterface => "org.freedesktop.DBus.Error.UnknownInterface"
  | .unknownMethod => "org.freedesktop.DBus.Error.UnknownMethod"
  | .wrongArguments => "org.freedesktop.zbus.Error"
  | .failed _ => "org.freedesktop.DBus.Error.Failed"

inductive Reply where
  | found (records : List WireMatch)
  | actions (records : List WireAction)
  | nothing
  | fault (cause : CallFault)
  /-- the call broke off and is never answered -/
  | missing
  deriving DecidableEq, Repr

def Reply.signature : Reply → String
  | .found _ => "a" ++ WireMatch.signature
  | .actions _ => "a" ++ WireAction.signature
  | .nothing | .fault _ | .missing => ""

structure MethodCall where
  path : String
  interface : String
  member : String
  arguments : List String
  deriving DecidableEq, Repr

def peerInterface : String := "org.freedesktop.DBus.Peer"

def matchCount (count : Nat) : Event :=
  { level := .debug, message := "Match", fields := [("count", toString count)],
    area := .adapters }

def runFailed (e : Error) (data actionId : String) : Event :=
  { level := .warn, message := "Run failed",
    fields := [("error", e.message), ("data", data), ("action_id", actionId)], area := .adapters }

variable {m : Type → Type} [Monad m] (log : Event → m Unit) (runner : Runner m)

def replyMatch (query : String) : m Reply := do
  let found ← runner.find ⟨query⟩
  log (matchCount found.length)
  return .found (found.map .ofMatch)

def replyActions : m Reply := do
  return .actions ((← runner.actions).map .ofAction)

def replyRun (data actionId : String) : m Reply := do
  match ← runner.run data actionId with
  | .done => return .nothing
  | .failed e =>
    log (runFailed e data actionId)
    return .fault (.failed e.message)
  | .aborted => return .missing

def replyTeardown : m Reply := do
  runner.teardown
  return .nothing

/--
The reply of the runner's interface. Methods that take no arguments overlook those they get.
-/
def replyMember (member : String) (arguments : List String) : m Reply :=
  match member, arguments with
  | "Match", [query] => replyMatch log runner query
  | "Match", _ => return .fault .wrongArguments
  | "Actions", _ => replyActions runner
  | "Run", [data, actionId] => replyRun log runner data actionId
  | "Run", _ => return .fault .wrongArguments
  | "Teardown", _ => replyTeardown runner
  | _, _ => return .fault .unknownMethod

/--
The reply to a call on a connection where `objectPath` is the one object. The paths above it exist,
but only as places.
-/
def reply (objectPath : String) (call : MethodCall) : m Reply :=
  let isAbove := (Path.ofString objectPath).startsWith (Path.ofString call.path)
  if call.path ≠ objectPath ∧ !isAbove then return .fault .unknownObject
  else if call.interface = peerInterface then
    return if call.member = "Ping" then .nothing else .fault .unknownMethod
  else if call.path ≠ objectPath ∨ call.interface ≠ runnerInterface then
    return .fault .unknownInterface
  else replyMember log runner call.member call.arguments

end Bus

end RunnerKit
