import RunnerKit.Settings.Value
/-!
This module contains the settings of the program: their names, their defaults and how they are found
in a table that several layers were merged into.
-/

namespace RunnerKit

namespace Settings

inductive Field where
  | appName
  | scopedPath
  | authorName
  | authorEmail
  | noColour
  | outputFormat
  | template
  | binDir
  deriving DecidableEq, Repr

namespace Field

def all : List Field :=
  [appName, scopedPath, authorName, authorEmail, noColour, outputFormat, template, binDir]

def sectionName : Field → String
  | appName | scopedPath => "service"
  | authorName | authorEmail => "author"
  | noColour | outputFormat => "output"
  | template => "templates"
  | binDir => "install"

def name : Field → String
  | appName => "app_name"
  | scopedPath => "scoped_path"
  | authorName => "name"
  | authorEmail => "email"
  | noColour => "no_color"
  | outputFormat => "format"
  | template => "default"
  | binDir => "bindir"

def place : Field → Nat
  | appName | authorName | noColour | template | binDir => 0
  | scopedPath | authorEmail | outputFormat => 1

def key (field : Field) : String := field.sectionName ++ "." ++ field.name

/--
The value of a setting if it has one. A section is a table, or a list in which the settings have
their places; anything else is no section.
-/
def find? (field : Field) (entries : Entries) : Option (Option Value) :=
  match entries.lookup field.sectionName with
  | none => some none
  | some (.table members) => some (members.lookup field.name)
  | some (.list values) => some values[field.place]?
  | some _ => none

def readAs {α : Type} (read : Value → Option α) (standard : α) (field : Field) (entries : Entries) :
    Option α := do
  match ← field.find? entries with
  | none => return standard
  | some value => read value

end Field

end Settings

/--
The settings of the program. An empty `binDir` stands for the directory that installed programs are
put in.
-/
structure Settings where
  appName : String := "DBusRunner"
  scopedPath : Bool := false
  authorName : String := "Your Name"
  authorEmail : String := "you@example.org"
  noColour : Bool := false
  outputFormat : String := "auto"
  template : String := "runner"
  binDir : String := ""
  deriving DecidableEq, Repr, Inhabited

namespace Settings

def value (s : Settings) : Field → Value
  | .appName => .text s.appName
  | .scopedPath => .flag s.scopedPath
  | .authorName => .text s.authorName
  | .authorEmail => .text s.authorEmail
  | .noColour => .flag s.noColour
  | .outputFormat => .text s.outputFormat
  | .template => .text s.template
  | .binDir => .text s.binDir

def shown (s : Settings) (field : Field) : String := ((s.value field).text?).getD ""

def get? (s : Settings) (key : String) : Option String :=
  (Field.all.find? (·.key == key)).map s.shown

def sections (s : Settings) : List (String × List (String × Value)) :=
  Field.all.foldr (fun field sections =>
    let entry := (field.name, s.value field)
    match sections with
    | (name, entries) :: rest =>
      if name = field.sectionName then (name, entry :: entries) :: rest
      else (field.sectionName, [entry]) :: sections
    | [] => [(field.sectionName, [entry])]) []

def toEntries (s : Settings) : Entries :=
  s.sections.map fun (name, entries) => (name, .table entries)

/--
The settings in a table. What is not there has its default, and what nobody asks for is passed over.
-/
def ofEntries? (entries : Entries) : Option Settings := do
  let text := Field.readAs Value.text?
  let flag := Field.readAs Value.flag?
  let standard : Settings := {}
  return {
    appName := ← text standard.appName .appName entries
    scopedPath := ← flag standard.scopedPath .scopedPath entries
    authorName := ← text standard.authorName .authorName entries
    authorEmail := ← text standard.authorEmail .authorEmail entries
    noColour := ← flag standard.noColour .noColour entries
    outputFormat := ← text standard.outputFormat .outputFormat entries
    template := ← text standard.template .template entries
    binDir := ← text standard.binDir .binDir entries
  }

end Settings

end RunnerKit
