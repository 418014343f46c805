import RunnerKit.Command.Session
import RunnerKit.Settings.Toml.Writer
/-!
This module contains the command that writes the default settings to a configuration file.
-/

namespace RunnerKit

namespace Command

def initPath (arguments : InitArguments) (named? : Option Path) (userPath : Path) : Path :=
  if arguments.isLocal then Settings.localPath else named?.getD userPath

variable {m : Type → Type} [Monad m] (s : Session m)

def attemptOr (call : Call) (message : String) : Task m Unit :=
  ExceptT.mk do return (← s.host.attempt call).mapError (.io message ·)

def runInit (arguments : InitArguments) : Task m Unit := do
  let path := initPath arguments s.globals.config? s.configPath
  if !arguments.force && (← s.host.holds path) then
    s.say (.warning ("Config already exists at " ++ path.display ++ "  (use --force to overwrite)"))
  else
    match path.parent? with
    | some parent =>
      unless parent.isEmpty do
        attemptOr s (.createDirAll parent)
          ("Failed to create config directory '" ++ parent.display ++ "'")
    | none => pure ()
    attemptOr s (.writeFile path (Settings.toToml {}))
      ("Failed to write config to '" ++ path.display ++ "'")
    s.say (.success ("Configuration created at " ++ path.display))

end Command

end RunnerKit
