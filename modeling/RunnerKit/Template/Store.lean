import RunnerKit.Log
import RunnerKit.Template.Builtin
/-!
This module contains the store of templates, which holds at most one valid template for each id and
lists them by id.
-/

namespace RunnerKit

structure Store where
  templates : Std.TreeMap String Template

namespace Store

def empty : Store := ⟨∅⟩

instance : Inhabited Store := ⟨empty⟩

def insert (s : Store) (t : Template) : Except Error Store :=
  match t.validate with
  | .ok _ => .ok ⟨s.templates.insert t.id t⟩
  | .error v => .error (.violation v)

def insertEvents (_ : Store) (t : Template) : List Event :=
  match t.validate with
  | .ok _ =>
    [{ level := .debug, message := "template registered", fields := [("id", t.id)],
       area := .adapters }]
  | .error _ => []

def insertAll (s : Store) : List Template → Except Error Store
  | [] => .ok s
  | t :: ts =>
    match s.insert t with
    | .ok s => s.insertAll ts
    | .error e => .error e

def insertAllEvents (s : Store) : List Template → List Event
  | [] => []
  | t :: ts =>
    match s.insert t with
    | .ok s' => s.insertEvents t ++ s'.insertAllEvents ts
    | .error _ => []

def loadBuiltin (s : Store) : Except Error Store := s.insertAll Builtin.all

def loadEvents : List Event := empty.insertAllEvents Builtin.all

def withBuiltin : Except Error Store := empty.loadBuiltin

def get (s : Store) (id : String) : Except Error Template :=
  match s.templates[id]? with
  | some t => .ok t
  | none => .error (.failure (.templateResolution ("Template not found: " ++ id)))

def toList (s : Store) : List Template := s.templates.values

def size (s : Store) : Nat := s.templates.size

def isEmpty (s : Store) : Bool := s.size == 0

end Store

structure TemplateInfo where
  id : String
  description : String
  pathStyle : String
  files : Nat
  deriving DecidableEq, Repr

def Template.info (t : Template) : TemplateInfo where
  id := t.id
  description := t.description
  pathStyle := t.pathStyle.text
  files := t.files.length

def Store.infos (s : Store) : List TemplateInfo := s.toList.map Template.info

end RunnerKit
