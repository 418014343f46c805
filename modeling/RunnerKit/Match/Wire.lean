import RunnerKit.Match.Basic
/-!
This module contains matches and actions in the shape that they have on the bus. Only the code of
the kind travels, so a kind that spells out a code with a name comes back as that name.
-/

namespace RunnerKit

inductive WireValue where
  | string (value : String)
  | boolean (value : Bool)
  | strings (values : List String)
  | int64 (value : Int64)
  | double (value : Binary64)
  deriving DecidableEq, Repr

def WireValue.signature : WireValue → String
  | .string _ => "s"
  | .boolean _ => "b"
  | .strings _ => "as"
  | .int64 _ => "x"
  | .double _ => "d"

def PropertyValue.toWire : PropertyValue → WireValue
  | .text value => .string value
  | .flag value => .boolean value
  | .texts values => .strings values
  | .integer value => .int64 value
  | .number value => .double value

def PropertyValue.ofWire : WireValue → PropertyValue
  | .string value => .text value
  | .boolean value => .flag value
  | .strings values => .texts values
  | .int64 value => .integer value
  | .double value => .number value

structure WireMatch where
  data : String
  text : String
  icon : String
  category : Int32
  relevance : Binary64
  properties : List (String × WireValue)
  deriving DecidableEq, Repr

namespace WireMatch

def signature : String := "(sssida\x7bsv\x7d)"

def ofMatch (m : Match) : WireMatch where
  data := m.id
  text := m.text
  icon := m.icon
  category := m.kind.code
  relevance := m.relevance.value
  properties := m.properties.toList.map fun (key, value) => (key, value.toWire)

def toMatch (w : WireMatch) : Match where
  id := w.data
  text := w.text
  icon := w.icon
  kind := .ofCode w.category
  relevance := .ofNumber w.relevance
  properties := w.properties.foldl (fun p (key, value) => p.insert key (.ofWire value)) .empty

end WireMatch

structure WireAction where
  id : String
  text : String
  icon : String
  deriving DecidableEq, Repr

namespace WireAction

def signature : String := "(sss)"

def ofAction (a : Action) : WireAction := ⟨a.id, a.text, a.icon⟩

end WireAction

end RunnerKit
