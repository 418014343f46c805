import RunnerKit.Text.Case
import RunnerKit.Text.Lossy
/-!
This module contains the names of applications and where a runner of that name lives on the bus.
-/

namespace RunnerKit

def busNamePrefix : String := "org.kde."

def runnerInterface : String := "org.kde.krunner1"

def defaultObjectPath : String := "/runner"

def maxBusNameBytes : Nat := 255

inductive NameFault where
  | empty
  | badStart
  | badCharacter (c : Char)
  | tooLong
  deriving DecidableEq, Repr

def NameFault.reason : NameFault → String
  | .empty => "name cannot be empty"
  | .badStart => "must start with an ASCII letter or '_'"
  | .badCharacter c => "character '" ++ c.toString ++ "' is not allowed"
  | .tooLong => "name is too long for a bus name"

namespace AppName

def isStart (c : Char) : Bool := c.isAlpha || c == '_'

def isPart (c : Char) : Bool := c.isAlphanum || c == '_'

/--
The first fault of a text as an application name. A name is an ASCII identifier, so that its lower
case form can stand in bus names and in object paths, and it leaves room for the bus name prefix.
-/
def fault? (text : String) : Option NameFault :=
  match text.toList with
  | [] => some .empty
  | first :: rest =>
    if !isStart first then some .badStart
    else match rest.find? (!isPart ·) with
      | some c => some (.badCharacter c)
      | none =>
        if maxBusNameBytes < busNamePrefix.utf8ByteSize + text.utf8ByteSize then some .tooLong
        else none

end AppName

structure AppName where
  text : String
  faultless : AppName.fault? text = none
  deriving DecidableEq, Repr

namespace AppName

def ofString (text : String) : Except NameFault AppName :=
  match h : fault? text with
  | none => .ok ⟨text, h⟩
  | some fault => .error fault

def lowercase (app : AppName) : String := asciiLower app.text

instance : ToString AppName := ⟨AppName.text⟩

end AppName

inductive PathStyle where
  /-- the path that the search host assumes -/
  | default
  /-- a path named after the application -/
  | appScoped
  deriving DecidableEq, Repr, Inhabited

def PathStyle.text : PathStyle → String
  | .default => "default"
  | .appScoped => "app-scoped"

structure ServiceIdentity where
  app : AppName
  style : PathStyle
  deriving DecidableEq, Repr

namespace ServiceIdentity

def busName (s : ServiceIdentity) : String :=
  busNamePrefix ++ s.app.lowercase

def objectPath (s : ServiceIdentity) : String :=
  match s.style with
  | .default => defaultObjectPath
  | .appScoped => "/" ++ s.app.lowercase

def text (s : ServiceIdentity) : String :=
  s.busName ++ " " ++ s.objectPath ++ " (" ++ runnerInterface ++ ")"

end ServiceIdentity

end RunnerKit
