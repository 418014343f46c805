/-!
This module contains the events that the library reports while it works. They are plain data: where
they go and which of them show is up to whoever runs an operation.
-/

namespace RunnerKit

inductive Level where
  | trace | debug | info | warn | error
  deriving DecidableEq, Repr, Inhabited

namespace Level

def name : Level → String
  | .trace => "TRACE"
  | .debug => "DEBUG"
  | .info => "INFO"
  | .warn => "WARN"
  | .error => "ERROR"

def rank : Level → Nat
  | .trace => 0
  | .debug => 1
  | .info => 2
  | .warn => 3
  | .error => 4

instance : LE Level := ⟨fun a b => a.rank ≤ b.rank⟩

instance (a b : Level) : Decidable (a ≤ b) := inferInstanceAs (Decidable (a.rank ≤ b.rank))

end Level

inductive Area where
  | program
  | core
  | adapters
  deriving DecidableEq, Repr, Inhabited

def Area.name : Area → String
  | .program => "dbusrunner"
  | .core => "dbusrunner_core"
  | .adapters => "dbusrunner_adapters"

structure Event where
  level : Level
  message : String
  fields : List (String × String) := []
  area : Area := .core
  deriving DecidableEq, Repr

end RunnerKit
