import RunnerKit.Log
import RunnerKit.Project.Structure
import RunnerKit.Template.Basic
import RunnerKit.Template.Context
/-!
This module contains the rendering of a template into a project: every path and every content with
its placeholders replaced, in the order of the template.
-/

namespace RunnerKit

def TemplateFile.renderingFailed (file : TemplateFile) (v : Violation) : Error :=
  .failure (.rendering (file.path.display ++ ": " ++ v.message))

def TemplateFile.render (file : TemplateFile) (ctx : Context) : Except Error ProjectFile :=
  match ctx.renderPath file.path with
  | .error v => .error (file.renderingFailed v)
  | .ok path =>
    match ctx.render file.content with
    | .error v => .error (file.renderingFailed v)
    | .ok content => .ok { path, content, executable := file.executable }

def renderFiles (ctx : Context) : List TemplateFile → Except Error (List ProjectFile)
  | [] => .ok []
  | file :: files => do
    let rendered ← file.render ctx
    let rest ← renderFiles ctx files
    return rendered :: rest

def ProjectFile.rendered (file : ProjectFile) : Event where
  level := .debug
  message := "rendered file"
  fields := [("path", file.path.display), ("bytes", toString file.content.utf8ByteSize)]
  area := .adapters

def renderedFiles (ctx : Context) : List TemplateFile → List ProjectFile
  | [] => []
  | file :: files =>
    match file.render ctx with
    | .ok rendered => rendered :: renderedFiles ctx files
    | .error _ => []

namespace Template

/--
The project that a template makes. The template is checked before anything is rendered; the project
is checked afterwards, since paths that differ in the template may agree once they are rendered.
-/
def render (t : Template) (ctx : Context) (root : Path) : Except Error ProjectStructure := do
  liftViolation t.validate
  let files ← renderFiles ctx t.files
  let project := files.foldl ProjectStructure.add { root }
  liftViolation project.validate
  return project

def renderEvents (t : Template) (ctx : Context) : List Event :=
  match t.validate with
  | .ok _ => (renderedFiles ctx t.files).map ProjectFile.rendered
  | .error _ => []

end Template

end RunnerKit
