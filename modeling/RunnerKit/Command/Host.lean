import RunnerKit.Bus.Registration
import RunnerKit.Log
import RunnerKit.Settings.Load
import RunnerKit.Storage.Basic
/-!
This module contains what commands ask of the system that they run on.
-/

namespace RunnerKit

inductive Channel where
  | output
  | error
  deriving DecidableEq, Repr

structure Surroundings where
  /-- the variables of the process -/
  env : Environment := []
  /-- the current directory, from the root on -/
  directory : Path
  /-- the home of the user for whom no variable names one -/
  accountHome : Home
  year : Int
  inputIsTerminal : Bool := false
  outputIsTerminal : Bool := false
  errorIsTerminal : Bool := false
  backend : Settings.Backend := {}

structure Host (m : Type → Type) where
  surroundings : Surroundings
  /-- makes a call to the storage, and says why it failed -/
  attempt : Call → m (Except String Unit)
  holds : Path → m Bool
  /-- the text of a file, and nothing for whatever else is at a path -/
  read? : Path → m (Option String)
  write : Channel → String → m Unit
  /-- writes an event to the log, with colours or without -/
  record : Bool → Event → m Unit
  /-- the next key that the user types -/
  key? : m (Option Char)
  bus : Bus.Link m

namespace Host

variable {m : Type → Type} [Monad m]

def filesystem (host : Host m) : Filesystem m where
  perform call := return (← host.attempt call).mapError call.refusal
  holds := host.holds

end Host

end RunnerKit
