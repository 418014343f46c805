import RunnerKit.Error
/-!
This module contains templates and the rules that make one well formed.
-/

namespace RunnerKit

/--
A file of a template. Its path and its content may hold placeholders.
-/
structure TemplateFile where
  path : Path
  content : String
  executable : Bool := false
  deriving DecidableEq, Repr

structure Template where
  id : String
  description : String
  pathStyle : PathStyle
  files : List TemplateFile
  deriving DecidableEq, Repr

namespace Template

def checkFiles (seen : List (List Component)) : List TemplateFile → Except Violation Unit
  | [] => .ok ()
  | file :: files =>
    if file.path.isAbsolute then .error (.absolutePath file.path.display)
    else if file.path.components ∈ seen then .error (.duplicatePath file.path.display)
    else checkFiles (file.path.components :: seen) files

def validate (t : Template) : Except Violation Unit :=
  if t.files.isEmpty then .error (.emptyTemplate t.id)
  else checkFiles [] t.files

end Template

structure TemplateDraft where
  id? : Option String := none
  description : String := ""
  pathStyle : PathStyle := .default
  files : List TemplateFile := []
  deriving Repr

namespace TemplateDraft

def withId (d : TemplateDraft) (id : String) : TemplateDraft := { d with id? := some id }

def withDescription (d : TemplateDraft) (description : String) : TemplateDraft :=
  { d with description }

def withPathStyle (d : TemplateDraft) (pathStyle : PathStyle) : TemplateDraft :=
  { d with pathStyle }

def addFile (d : TemplateDraft) (file : TemplateFile) : TemplateDraft :=
  { d with files := d.files ++ [file] }

def build (d : TemplateDraft) : Except Violation Template :=
  match d.id? with
  | none => .error (.missingField "id")
  | some id =>
    let template : Template := ⟨id, d.description, d.pathStyle, d.files⟩
    template.validate.map fun _ => template

end TemplateDraft

end RunnerKit
