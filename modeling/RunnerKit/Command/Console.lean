import RunnerKit.CommandLine.Arguments
import RunnerKit.Settings.Basic
import RunnerKit.Terminal.Style
/-!
This module contains what commands have to say to the user and how it is written.
-/

namespace RunnerKit

inductive Message where
  /-- what the user asked for; it is never held back -/
  | data (text : String)
  | plain (text : String)
  | header (text : String)
  | success (text : String)
  | warning (text : String)
  | info (text : String)
  deriving DecidableEq, Repr

namespace Message

def isPayload : Message → Bool
  | data _ => true
  | _ => false

open Style in
def marked (colour? : Option (String → String)) (mark text : String) : String :=
  match colour? with
  | some colour => bold (colour mark) ++ " " ++ colour text
  | none => mark ++ " " ++ text

open Style in
def line (coloured : Bool) : Message → String
  | data text | plain text => text
  | header text => if coloured then bold (cyan text) else text
  | success text => marked (if coloured then some green else none) "✓" text
  | warning text => marked (if coloured then some yellow else none) "⚠" text
  | info text => marked (if coloured then some blue else none) "ℹ" text

end Message

structure Console where
  format : OutputFormat
  quiet : Bool
  coloured : Bool
  deriving DecidableEq, Repr

namespace Console

/--
The format that is asked for, first on the command line and then in the settings. If neither
decides, terminals get the format for humans.
-/
def formatOf (globals : Globals) (settings : Settings) (isTerminal : Bool) : OutputFormat :=
  let wanted := match globals.outputFormat with
    | .auto => (OutputFormat.ofSetting? settings.outputFormat).getD .auto
    | format => format
  match wanted with
  | .auto => if isTerminal then .human else .plain
  | format => format

def ofSettings (globals : Globals) (settings : Settings) (isTerminal : Bool) : Console where
  format := formatOf globals settings isTerminal
  quiet := globals.quiet
  coloured :=
    !globals.noColour && !settings.noColour && formatOf globals settings isTerminal == .human

/--
What is written for a message. A quiet console holds back everything but payload.
-/
def text? (console : Console) (message : Message) : Option String :=
  if console.quiet && !message.isPayload then none
  else some (message.line console.coloured ++ "\n")

end Console

end RunnerKit
