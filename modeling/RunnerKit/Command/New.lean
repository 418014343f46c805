import RunnerKit.Command.Session
import RunnerKit.Project.Scaffold
/-!
This module contains the command that generates a project. Everything is checked before anything is
written.
-/

namespace RunnerKit

namespace Command

def cargoBinDir (env : Environment) (home : Home) : Option Path :=
  ((env.directory? "CARGO_HOME").or (home.map (·.join (.ofString ".cargo")))).map
    (·.join (.ofString "bin"))

def projectYear (asked? : Option Int) (current : Int) : Except CommandError Int :=
  match asked? with
  | some year =>
    if year ≤ 0 then .error (.invalidInput ("year must be positive, got " ++ toString year))
    else .ok year
  | none => .ok current

def projectBinDir (arguments : NewArguments) (settings : Settings) (standard? : Option Path) :
    Option Path :=
  let configured? := if settings.binDir.isEmpty then none else some (Path.ofString settings.binDir)
  arguments.binDir?.or (configured?.or standard?)

structure NewProject where
  app : AppName
  year : Int
  request : ScaffoldRequest

/--
The project that a command line asks for. The name is checked first, then the year and the install
directory.
-/
def NewProject.ofArguments (arguments : NewArguments) (settings : Settings)
    (standardBinDir? : Option Path) (currentYear : Int) : Except CommandError NewProject := do
  let app ← (AppName.ofString arguments.name).mapError fun fault =>
    .library (.violation (fault.violation arguments.name))
  let year ← projectYear arguments.year? currentYear
  let author := arguments.author?.getD settings.authorName
  let email := arguments.email?.getD settings.authorEmail
  let standard := Context.ofProject app author email year
  let context ← match projectBinDir arguments settings standardBinDir? with
    | some dir => (standard.withBinDir dir).mapError fun v => .library (.violation v)
    | none => .ok standard
  let template := arguments.template?.getD settings.template
  return { app, year, request := { template, context, root := .ofString app.lowercase } }

namespace NewProject

def resolved (p : NewProject) : Event where
  level := .debug
  message := "Context resolved"
  fields := [("template", p.request.template), ("year", toString p.year),
    ("path", p.request.root.display)]
  area := .program

def started (p : NewProject) : Event where
  level := .info
  message := "Scaffold started"
  fields := [("path", p.request.root.display)]
  area := .program

def preview (p : NewProject) (plan : ProjectStructure) : List Message :=
  .info ("Dry run: would create '" ++ p.request.root.display ++ "' from template '" ++
    p.request.template ++ "'")
    :: plan.files.map fun file => .plain ("  " ++ (plan.location file).display)

def summary (p : NewProject) (plan : ProjectStructure) : List Message :=
  [.header "Configuration",
   .plain ("  Application:  " ++ p.app.text),
   .plain ("  Bus name:     org.kde." ++ p.app.lowercase),
   .plain ("  Template:     " ++ p.request.template),
   .plain ("  Location:     " ++ p.request.root.display),
   .plain ("  Files:        " ++ toString plan.fileCount),
   .plain ""]

def nextSteps (p : NewProject) : List Message :=
  [.success ("Runner '" ++ p.app.text ++ "' created!"),
   .plain "",
   .plain "Next steps:",
   .plain ("  cd " ++ p.request.root.display),
   .plain "  cargo build",
   .plain "  # then follow README.md to install the desktop and service files"]

end NewProject

def answerOfKey? (key : Char) : Option Bool :=
  match key with
  | 'y' | 'Y' | '\n' | '\r' => some true
  | 'n' | 'N' => some false
  | _ => none

section

variable {m : Type → Type} [Monad m] (s : Session m)

/--
The answer of the first key that gives one. At most `count` keys are waited for.
-/
def awaitAnswer : Nat → m (Option Bool)
  | 0 => return none
  | count + 1 => do
    match ← s.host.key? with
    | none => return none
    | some key =>
      match answerOfKey? key with
      | some answer => return some answer
      | none => awaitAnswer count

def maxKeys : Nat := 10000

def confirm : Task m Unit := do
  let failed (cause : String) : CommandError := .io "failed to read confirmation input" cause
  unless s.host.surroundings.errorIsTerminal do throw (failed "IO error: not a terminal")
  s.host.write .error "Continue? [Y/n] "
  let answer? ← (awaitAnswer s maxKeys : m (Option Bool))
  match answer? with
  | none => throw (failed "IO error: end of input")
  | some answer =>
    s.host.write .error (if answer then "yes\n" else "no\n")
    unless answer do throw .cancelled

def runNew (arguments : NewArguments) : Task m Unit := do
  let around := s.host.surroundings
  let p ← ExceptT.mk (pure (NewProject.ofArguments arguments s.settings
    (cargoBinDir s.env s.home) around.year))
  s.log p.resolved
  s.logAll Store.loadEvents
  let store ← Task.ofExcept Store.withBuiltin
  s.logAll (store.planEvents p.request)
  let plan ← Task.ofExcept (store.plan p.request)
  if !arguments.force && (← s.host.holds p.request.root) then throw (.projectExists p.request.root)
  if arguments.dryRun then s.sayAll (p.preview plan)
  else
    if !s.console.quiet && !arguments.yes && around.inputIsTerminal then
      s.sayAll (p.summary plan)
      confirm s
    s.say (.header ("Creating '" ++ p.request.root.display ++ "'..."))
    s.log p.started
    let _ ← Task.ofLibrary (Scaffold.run s.host.filesystem s.log store p.request arguments.force)
    s.sayAll p.nextSteps

end

end Command

end RunnerKit
