import Std.Data.TreeMap
import RunnerKit.Binary64.Basic
/-!
This module contains the properties of a match: a map from keys to values of five types. The keys
that the search host knows have accessors, which overlook values of the wrong type.
-/

namespace RunnerKit

inductive PropertyValue where
  | text (value : String)
  | flag (value : Bool)
  | texts (values : List String)
  | integer (value : Int64)
  | number (value : Binary64)
  deriving DecidableEq, Repr, Inhabited

namespace PropertyValue

def text? : PropertyValue → Option String
  | .text value => some value
  | _ => none

def flag? : PropertyValue → Option Bool
  | .flag value => some value
  | _ => none

def texts? : PropertyValue → Option (List String)
  | .texts values => some values
  | _ => none

def numEq : PropertyValue → PropertyValue → Bool
  | .number a, .number b => a.numEq b
  | a, b => decide (a = b)

end PropertyValue

namespace PropertyKey

/-! The keys that mean something to the search host. -/

def subtext : String := "subtext"
def category : String := "category"
def multiline : String := "multiline"
def urls : String := "urls"
def actions : String := "actions"

end PropertyKey

structure Properties where
  entries : Std.TreeMap String PropertyValue

namespace Properties

def empty : Properties := ⟨∅⟩

instance : Inhabited Properties := ⟨empty⟩

def insert (p : Properties) (key : String) (value : PropertyValue) : Properties :=
  ⟨p.entries.insert key value⟩

def get? (p : Properties) (key : String) : Option PropertyValue := p.entries[key]?

def toList (p : Properties) : List (String × PropertyValue) := p.entries.toList

def size (p : Properties) : Nat := p.entries.size

def isEmpty (p : Properties) : Bool := p.entries.isEmpty

def subtext? (p : Properties) : Option String :=
  (p.get? PropertyKey.subtext).bind PropertyValue.text?

def category? (p : Properties) : Option String :=
  (p.get? PropertyKey.category).bind PropertyValue.text?

def isMultiline (p : Properties) : Bool :=
  ((p.get? PropertyKey.multiline).bind PropertyValue.flag?).getD false

def urls (p : Properties) : List String :=
  ((p.get? PropertyKey.urls).bind PropertyValue.texts?).getD []

def actionIds? (p : Properties) : Option (List String) :=
  (p.get? PropertyKey.actions).bind PropertyValue.texts?

def numEq (p q : Properties) : Bool :=
  p.size == q.size &&
    (p.toList.zip q.toList).all fun (a, b) => a.1 == b.1 && a.2.numEq b.2

end Properties

end RunnerKit
