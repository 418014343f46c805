import RunnerKit.Error
import RunnerKit.Log
/-!
This module contains the registration of a runner on the session bus. The object is there before the
name is asked for, so nobody sees the name without the object.
-/

namespace RunnerKit

namespace Bus

inductive NameReply where
  | granted
  | taken
  | refused (name message : String)
  deriving DecidableEq, Repr

structure Link (m : Type → Type) where
  connect : m (Except String Unit)
  requestName : String → m NameReply

namespace Link

def lift {m n : Type → Type} (f : {α : Type} → m α → n α) (link : Link m) : Link n where
  connect := f link.connect
  requestName name := f (link.requestName name)

end Link

def registered (service : ServiceIdentity) : Event :=
  { level := .info, message := "Runner registered",
    fields := [("bus_name", service.busName), ("object_path", service.objectPath),
      ("interface", runnerInterface)], area := .adapters }

def serving (service : ServiceIdentity) : Event :=
  { level := .info, message := "Serving", fields := [("service", service.text)],
    area := .adapters }

def register {m : Type → Type} [Monad m] (link : Link m) (log : Event → m Unit)
    (service : ServiceIdentity) : m (Except Error Unit) := do
  match ← link.connect with
  | .error reason => return .error (.failure (.bus "connection" reason))
  | .ok _ =>
    match ← link.requestName service.busName with
    | .granted =>
      log (registered service)
      return .ok ()
    | .taken => return .error (.failure (.bus nameRequest "name already taken on the bus"))
    | .refused name message => return .error (.failure (.bus nameRequest (name ++ ": " ++ message)))

inductive LinkCall where
  | hello
  | requestName (name : String)
  deriving DecidableEq, Repr

structure FixedBus where
  listening : Bool := true
  nameReply : NameReply := .granted
  calls : List LinkCall := []
  deriving Repr

def FixedBus.link : Link (StateM FixedBus) where
  connect := fun bus =>
    if bus.listening then (.ok (), { bus with calls := bus.calls ++ [LinkCall.hello] })
    else (.error "I/O error: No such file or directory (os error 2)", bus)
  requestName name := fun bus =>
    (bus.nameReply, { bus with calls := bus.calls ++ [LinkCall.requestName name] })

end Bus

end RunnerKit
