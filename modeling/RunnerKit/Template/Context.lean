import Std.Data.TreeMap
import RunnerKit.Error
import RunnerKit.Template.Placeholder
/-!
This module contains the values that placeholders stand for and the texts and paths that result when
they are put in. A value is put in as it is and never read for placeholders again.
-/

namespace RunnerKit

namespace PlaceholderKey

/-! The placeholders that every template may use. -/

def appName : String := "APPNAME"
def appNameLower : String := "APPNAMELC"
def author : String := "AUTHOR"
def email : String := "EMAIL"
def year : String := "CURRENT_YEAR"
def binDir : String := "BINDIR"

end PlaceholderKey

def defaultBinDir : String := "/usr/local/bin"

structure Context where
  bindings : Std.TreeMap String String

namespace Context

def bind (ctx : Context) (key value : String) : Context :=
  ⟨ctx.bindings.insert key value⟩

def get? (ctx : Context) (key : String) : Option String := ctx.bindings[key]?

def ofProject (app : AppName) (author email : String) (year : Int) : Context :=
  (⟨∅⟩ : Context)
    |>.bind PlaceholderKey.appName app.text
    |>.bind PlaceholderKey.appNameLower app.lowercase
    |>.bind PlaceholderKey.author author
    |>.bind PlaceholderKey.email email
    |>.bind PlaceholderKey.year (toString year)
    |>.bind PlaceholderKey.binDir defaultBinDir

/--
The context with another install directory. The session bus looks nowhere for programs, so the
directory has to be absolute.
-/
def withBinDir (ctx : Context) (dir : Path) : Except Violation Context :=
  if dir.isAbsolute then .ok (ctx.bind PlaceholderKey.binDir dir.display)
  else .error (.relativeBinDir dir.display)

def fill (ctx : Context) : Piece → Except Violation (List Char)
  | .literal c => .ok [c]
  | .slot key =>
    match ctx.get? (String.ofList key) with
    | some value => .ok value.toList
    | none => .error (.unknownPlaceholder (String.ofList key))
  | .unclosed offset => .error (.unterminatedPlaceholder offset)

/--
What some pieces become. The first piece that cannot be filled decides the error.
-/
def fillAll (ctx : Context) : List Piece → Except Violation (List Char)
  | [] => .ok []
  | piece :: pieces => do
    let chars ← ctx.fill piece
    let rest ← ctx.fillAll pieces
    return chars ++ rest

def render (ctx : Context) (source : String) : Except Violation String :=
  (ctx.fillAll (Piece.scan 0 source.toList)).map String.ofList

/--
A path with its placeholders replaced. It is rendered as text, so bytes that are no UTF-8 are lost.
-/
def renderPath (ctx : Context) (path : Path) : Except Violation Path :=
  (ctx.render path.display).map Path.ofString

end Context

end RunnerKit
