import RunnerKit.Output.Basic
/-!
This module contains the output that writes a line for each choice. A line goes to its sink in
pieces and is flushed at once; the sink may refuse at any byte of it.
-/

namespace RunnerKit

inductive SinkFault where
  | error (text : String)
  /-- takes no byte and says so -/
  | takesNothing
  | panics
  deriving DecidableEq, Repr

structure Sink where
  room : Option Nat := none
  fault : SinkFault := .error ""
  flushFault : Option String := none
  written : List UInt8 := []
  flushes : Nat := 0
  deriving Repr

namespace Sink

def accepted (s : Sink) (bytes : List UInt8) : List UInt8 :=
  match s.room with
  | none => bytes
  | some room => bytes.take (room - s.written.length)

/--
Writes some bytes. As many as there is room for are taken even when it fails.
-/
def write (s : Sink) (bytes : List UInt8) : Except SinkFault Unit × Sink :=
  let taken := s.accepted bytes
  let s := { s with written := s.written ++ taken }
  (if taken.length = bytes.length then .ok () else .error s.fault, s)

def writeAll (s : Sink) : List (List UInt8) → Except SinkFault Unit × Sink
  | [] => (.ok (), s)
  | piece :: pieces =>
    match s.write piece with
    | (.ok _, s) => s.writeAll pieces
    | (.error fault, s) => (.error fault, s)

def flush (s : Sink) : Option String × Sink :=
  (s.flushFault, { s with flushes := s.flushes + 1 })

end Sink

/--
A writer of lines. It is poisoned once its sink has panicked in its hands.
-/
structure LineWriter where
  sink : Sink
  poisoned : Bool := false
  deriving Repr

namespace LineWriter

def pieces (data actionId : String) : List (List UInt8) :=
  [utf8Bytes data, utf8Bytes " ", utf8Bytes actionId, utf8Bytes "\n"]

def failed (reason : String) : Outcome := .failed (.failure (.output reason))

def emit (w : LineWriter) (data actionId : String) : Outcome × LineWriter :=
  if w.poisoned then (failed "output lock poisoned", w)
  else match w.sink.writeAll (pieces data actionId) with
    | (.ok _, sink) =>
      match sink.flush with
      | (none, sink) => (.done, { w with sink })
      | (some fault, sink) => (failed fault, { w with sink })
    | (.error (.error text), sink) => (failed text, { w with sink })
    | (.error .takesNothing, sink) => (failed "failed to write whole buffer", { w with sink })
    | (.error .panics, sink) => (.aborted, { sink, poisoned := true })

def output : Output (StateM LineWriter) where
  emit data actionId := fun w => w.emit data actionId

end LineWriter

end RunnerKit
