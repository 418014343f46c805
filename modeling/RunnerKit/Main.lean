import RunnerKit.Command.Run
import RunnerKit.Storage.Disk
import RunnerKit.Text.Lossy
/-!
This module contains the program itself. It gives the commands the system that it runs on and
decides nothing.
-/

namespace RunnerKit

namespace Main

def causeOf : IO.Error → String
  | .noFileOrDirectory .. => SystemFault.noEntry.text
  | .alreadyExists .. => SystemFault.exists.text
  | .inappropriateType .. => SystemFault.notDirectory.text
  | .resourceBusy .. => SystemFault.busy.text
  | .permissionDenied .. => "Permission denied (os error 13)"
  | e => toString e

def guarded (action : IO Unit) : IO (Except String Unit) := do
  try
    action
    return .ok ()
  catch e => return .error (causeOf e)

def perform : Call → IO Unit
  | .createDirAll path => IO.FS.createDirAll path.display
  | .writeFile path content => IO.FS.writeFile path.display content
  | .setExecutable path =>
    let all : IO.AccessRight := { read := true, execution := true }
    IO.setAccessRights path.display
      { user := { all with write := true }, group := all, other := all }
  | .removeDirAll path => IO.FS.removeDirAll path.display

def holds (path : Path) : IO Bool := do
  try
    let _ ← IO.FS.realPath path.display
    return true
  catch _ => return false

def textOf (bytes : ByteArray) : String := String.ofList (decodeLossy bytes.toList)

def read? (path : Path) : IO (Option String) := do
  try return some (textOf (← IO.FS.readBinFile path.display))
  catch _ => return none

def write (channel : Channel) (text : String) : IO Unit := do
  let stream ← match channel with
    | .output => IO.getStdout
    | .error => IO.getStderr
  stream.putStr text
  stream.flush

def lineOf (coloured : Bool) (event : Event) : String :=
  let level := if coloured then Style.dimmed event.level.name else event.level.name
  let fields := event.fields.map fun (name, value) => " " ++ name ++ "=" ++ value
  level ++ " " ++ event.message ++ String.join fields ++ "\n"

/--
The first character of the next line. An empty line is the return key alone.
-/
def key? : IO (Option Char) := do
  return (← (← IO.getStdin).getLine).toList.head?

def environment : IO Environment := do
  let text := (← read? (.ofString "/proc/self/environ")).getD ""
  let entries := (text.split (· == '\x00')).toList.map (·.toString.toList)
  return entries.filterMap fun cs =>
    match cs.dropWhile (· != '=') with
    | [] => none
    | _ :: value => some (String.ofList (cs.takeWhile (· != '=')), String.ofList value)

def accountHome : IO Home := do
  let status := (← read? (.ofString "/proc/self/status")).getD ""
  let user? := (status.splitOn "\n").findSome? fun line =>
    match line.splitOn "\t" with
    | "Uid:" :: user :: _ => some user
    | _ => none
  let accounts := (← read? (.ofString "/etc/passwd")).getD ""
  return (accounts.splitOn "\n").findSome? fun line =>
    match line.splitOn ":" with
    | [_, _, user, _, _, home, _] =>
      if user? = some user && !home.isEmpty then some (.ofString home) else none
    | _ => none

def yearOf (seconds : Int) : Int :=
  let days := seconds / 86400 + 719468
  let day := days % 146097
  let year := (day - day / 1460 + day / 36524 - day / 146096) / 365
  let dayOfYear := day - (365 * year + year / 4 - year / 100)
  year + days / 146097 * 400 + if 306 ≤ dayOfYear then 1 else 0

/--
The current year. What the system says of a process is as old as the question.
-/
def currentYear : IO Int := do
  try
    let place ← IO.FS.realPath "/proc/self"
    return yearOf (← place.metadata).modified.sec
  catch _ => return 1970

def surroundings : IO Surroundings := do
  return {
    env := ← environment
    directory := .ofString (← IO.currentDir).toString
    accountHome := ← accountHome
    year := ← currentYear
    inputIsTerminal := ← (← IO.getStdin).isTty
    outputIsTerminal := ← (← IO.getStdout).isTty
    errorIsTerminal := ← (← IO.getStderr).isTty
  }

/--
The system that the program runs on. It has no way to the session bus.
-/
def host (around : Surroundings) : Host IO where
  surroundings := around
  attempt call := guarded (perform call)
  holds := holds
  read? := read?
  write := write
  record coloured event := write .error (lineOf coloured event)
  key? := key?
  bus := {
    connect := return .error "no session bus can be reached"
    requestName _ := return .taken
  }

end Main

end RunnerKit

open RunnerKit in
def main (words : List String) : IO UInt32 := do
  let around ← Main.surroundings
  try
    match ← Command.run (Main.host around) CommandLine.pages words with
    | .exited code => return code.toUInt32
    | .serving .. => return 0
  catch failure =>
    -- What is written may not arrive.
    let e := CommandError.ofSystem (Main.causeOf failure)
    let configPath := Settings.userPath around.env (around.home around.env)
    Main.write .error (e.plain configPath false)
    return e.exitCode.toUInt32
