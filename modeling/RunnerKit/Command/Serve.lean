import RunnerKit.Bus.Interface
import RunnerKit.Command.Session
import RunnerKit.Runner.Greeter
/-!
This module contains the command that puts the greeting runner on the session bus, and the replies
to calls while it serves.
-/

namespace RunnerKit

namespace Command

def serviceOf (arguments : ServeArguments) (settings : Settings) :
    Except CommandError ServiceIdentity := do
  let name := arguments.name?.getD settings.appName
  let app ← (AppName.ofString name).mapError fun fault =>
    .library (.violation (fault.violation name))
  let isScoped := arguments.scopedPath || settings.scopedPath
  return { app, style := if isScoped then .appScoped else .default }

def identityResolved (service : ServiceIdentity) : Event where
  level := .debug
  message := "Identity resolved"
  fields := [("service", service.text)]
  area := .program

variable {m : Type → Type} [Monad m] (s : Session m)

def runServe (arguments : ServeArguments) : Task m ServiceIdentity := do
  let service ← ExceptT.mk (pure (serviceOf arguments s.settings))
  s.log (identityResolved service)
  s.status ("Registering " ++ service.busName ++ " at " ++ service.objectPath)
  Task.ofLibrary (Bus.register s.host.bus s.log service)
  s.status ("Serving " ++ service.text ++ " (Ctrl+C to stop)")
  s.log (Bus.serving service)
  return service

def lineOutput : Output m where
  emit data actionId := do
    s.host.write .output (data ++ " " ++ actionId ++ "\n")
    return .done

def reply (service : ServiceIdentity) (call : Bus.MethodCall) : m Bus.Reply :=
  Bus.reply s.log (greeter service.app (lineOutput s) s.log) service.objectPath call

end Command

end RunnerKit
