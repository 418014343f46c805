import RunnerKit.Command.Console
import RunnerKit.Command.Error
import RunnerKit.Command.Host
import RunnerKit.Log.Filter
/-!
This module contains what a command has at hand while it runs: the system, the options that all
commands share and the settings.
-/

namespace RunnerKit

def Surroundings.home (around : Surroundings) (env : Environment) : Home :=
  match env.get? "HOME" with
  | some home => if home.isEmpty then around.accountHome else .ofString home
  | none => around.accountHome

abbrev Task (m : Type → Type) := ExceptT CommandError m

structure Session (m : Type → Type) where
  host : Host m
  /-- the variables of the process and of its variable file -/
  env : Environment
  globals : Globals
  settings : Settings := {}

namespace Session

variable {m : Type → Type} [Monad m] (s : Session m)

def home : Home := s.host.surroundings.home s.env

def configPath : Path := Settings.userPath s.env s.home

def isVerbose : Bool := 0 < s.globals.verbose

def filter : LogFilter :=
  ((s.env.get? "RUST_LOG").bind LogFilter.read?).getD
    (.ofVerbosity s.globals.verbose s.globals.quiet)

def log (event : Event) : m Unit :=
  if s.filter.shows event then
    s.host.record (!s.globals.noColour && s.host.surroundings.errorIsTerminal) event
  else return ()

def logAll (events : List Event) : m Unit := events.forM s.log

def console : Console := .ofSettings s.globals s.settings s.host.surroundings.outputIsTerminal

def say (message : Message) : m Unit :=
  match s.console.text? message with
  | some text => s.host.write .output text
  | none => return ()

def sayAll (messages : List Message) : m Unit := messages.forM s.say

def status (text : String) : m Unit :=
  match s.console.text? (.info text) with
  | some text => s.host.write .error text
  | none => return ()

def report (e : CommandError) : m Unit := do
  s.logAll e.events
  let coloured := !s.globals.noColour && !s.settings.noColour && s.host.surroundings.errorIsTerminal
  s.host.write .error
    (if coloured then e.coloured s.configPath s.isVerbose else e.plain s.configPath s.isVerbose)

end Session

namespace Task

variable {m : Type → Type} [Monad m]

def ofExcept {α : Type} (result : Except Error α) : Task m α :=
  ExceptT.mk (return result.mapError .library)

def ofLibrary {α : Type} (x : m (Except Error α)) : Task m α :=
  ExceptT.mk (return (← x).mapError .library)

end Task

end RunnerKit
