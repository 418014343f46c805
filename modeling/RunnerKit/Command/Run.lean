import RunnerKit.Command.Init
import RunnerKit.Command.Inspect
import RunnerKit.Command.New
import RunnerKit.Command.Serve
import RunnerKit.CommandLine.Parser
import RunnerKit.CommandLine.Usage
import RunnerKit.Settings.VariableFile
/-!
This module contains a whole run of the program, from the words of its command line to its exit
code.
-/

namespace RunnerKit

namespace Command

inductive Ending (m : Type → Type) where
  | exited (code : UInt8)
  | serving (s : Session m) (service : ServiceIdentity)

def begun (globals : Globals) : Event where
  level := .debug
  message := "CLI started"
  fields := [("verbose", toString globals.verbose), ("quiet", toString globals.quiet),
    ("no_color", toString globals.noColour)]
  area := .program

def succeeded : Event where
  level := .info
  message := "dbusrunner completed successfully"
  area := .program

variable {m : Type → Type} [Monad m]

def directoriesFrom (directory : Path) : Nat → List Path
  | 0 => [directory]
  | n + 1 =>
    match directory.parent? with
    | some parent => directory :: directoriesFrom parent n
    | none => [directory]

def environment (host : Host m) : m Environment := do
  let around := host.surroundings
  let directories := directoriesFrom around.directory around.directory.bytes.length
  match ← directories.findSomeM? fun directory => host.read? (directory.join VariableFile.name) with
  | some text => return VariableFile.addText around.env text
  | none => return around.env

def dispatch (pages : Pages) (s : Session m) : Command → Task m (Option ServiceIdentity)
  | .serve arguments => some <$> runServe s arguments
  | .new arguments => do runNew s arguments; return none
  | .list format? => do runList s format?; return none
  | .init arguments => do runInit s arguments; return none
  | .completions shell => do s.host.write .output (pages.completions shell); return none
  | .config command => do runConfig s command; return none

def fail (s : Session m) (e : CommandError) : m (Ending m) := do
  s.report e
  return .exited e.exitCode

def runInvocation (host : Host m) (pages : Pages) (env : Environment)
    (invocation : Invocation) :
    m (Ending m) := do
  let s : Session m := { host, env, globals := invocation.globals }
  s.log (begun s.globals)
  match ← Settings.load host.read? env s.home s.globals.config? host.surroundings.backend with
  | .error e => fail s (.config e.chain (some e.message) e.causes)
  | .ok settings =>
    let s := { s with settings }
    match ← (dispatch pages s invocation.command).run with
    | .error e => fail s e
    | .ok (some service) => return .serving s service
    | .ok none =>
      s.log succeeded
      return .exited 0

def answerUsage (host : Host m) (pages : Pages) (fault : UsageFault) : m (Ending m) := do
  let text := if fault = .version then CommandLine.version ++ "\n" else pages.usage
  host.write (if fault.isAnswer then .output else .error) text
  return .exited fault.exitCode

def run (host : Host m) (pages : Pages) (words : List String) : m (Ending m) := do
  let env ← environment host
  match CommandLine.parse (env.get? "NO_COLOR") words with
  | .error fault => answerUsage host pages fault
  | .ok invocation => runInvocation host pages env invocation

end Command

end RunnerKit
