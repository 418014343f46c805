import RunnerKit.CommandLine.Grammar
/-!
This module contains the texts that tell how the program is used: the help and the scripts by which
shells complete its command lines.
-/

namespace RunnerKit

structure Pages where
  usage : String
  completions : Shell → String

namespace CommandLine

def programName : String := "dbusrunner"

def version : String := programName ++ " 0.1.0"

def Takes.placeholder : Takes → String
  | .nothing | .count => ""
  | .value .text => " <TEXT>"
  | .value .path => " <PATH>"
  | .value .year => " <YEAR>"
  | .value .outputFormat => " <auto|human|plain|json>"
  | .value .listFormat => " <table|list|json>"
  | .value .shell => " <" ++ "|".intercalate (Shell.all.map Shell.word) ++ ">"

def optionLine : String × Option Char × Parameter → String
  | (long, short?, p) =>
    let short := match short? with
      | some c => "-" ++ c.toString ++ ", "
      | none => "    "
    "  " ++ short ++ "--" ++ long ++ p.takes.placeholder ++ "\n"

def Place.help (place : Place) (names : List String) : String :=
  let argument := match place.positional? with
    | some p => p.takes.placeholder
    | none => if place.needsChild then " <COMMAND>" else ""
  "  " ++ ", ".intercalate names ++ argument ++ "\n" ++
    String.join (place.ownOptions.map fun option => "  " ++ optionLine option)

def usage : String :=
  "Usage: " ++ programName ++ " [OPTIONS] <COMMAND>\n\nCommands:\n" ++
    String.join (Place.root.children.map fun (names, place) => place.help names) ++
    "  help\n\nOptions:\n" ++ String.join (Place.sharedOptions.map optionLine) ++
    "  -h, --help\n  -V, --version\n"

def firstWords : List String :=
  Place.root.children.flatMap (·.1) ++ ["help"] ++
    Place.root.options.map fun (long, _) => "--" ++ long

def completions (shell : Shell) : String :=
  let words := " ".intercalate firstWords
  match shell with
  | .bash => "complete -W '" ++ words ++ "' " ++ programName ++ "\n"
  | .zsh => "#compdef " ++ programName ++ "\n_arguments '1:command:(" ++ words ++ ")'\n"
  | .fish => "complete -c " ++ programName ++ " -f -n __fish_use_subcommand -a '" ++ words ++ "'\n"
  | .powerShell =>
    "Register-ArgumentCompleter -Native -CommandName " ++ programName ++ " -ScriptBlock \x7b\n" ++
      "  param($word)\n  '" ++ words ++ "'.Split(' ') -like \"$word*\"\n\x7d\n"
  | .elvish =>
    "set edit:completion:arg-completer[" ++ programName ++ "] = \x7b|@words| put " ++ words ++
      " \x7d\n"

def pages : Pages where
  usage := usage
  completions := completions

end CommandLine

end RunnerKit
