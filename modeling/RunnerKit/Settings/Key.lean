import RunnerKit.Settings.Value
/-!
This module contains the keys that a layer of settings is written with. A key may lead into tables
and lists, as in `service.app_name` or `service[0]`; a key of any other form names an entry as it
stands.
-/

namespace RunnerKit.Settings

/--
A step further into a value: to an entry of a table, or to a place in a list, counted from its end
if negative.
-/
inductive Step where
  | entry (name : String)
  | place (index : Int)
  deriving DecidableEq, Repr

structure Key where
  root : String
  steps : List Step
  deriving DecidableEq, Repr

namespace Key

def isNameChar (c : Char) : Bool := c.isAlphanum || c == '_' || c == '-'

def takeName (cs : List Char) : Option (String × List Char) :=
  let name := cs.takeWhile isNameChar
  if name.isEmpty then none else some (String.ofList name, cs.dropWhile isNameChar)

def takeIndex (cs : List Char) : Option (Int × List Char) :=
  let isBlank (c : Char) := c == ' ' || c == '\t'
  let inner := cs.takeWhile (· != ']')
  let trimmed := ((inner.dropWhile isBlank).reverse.dropWhile isBlank).reverse
  match cs.dropWhile (· != ']') with
  | [] => none
  | _ :: rest => do
    guard (trimmed.head? != some '+')
    return (← readInt64? trimmed, rest)

def readSteps (fuel : Nat) (cs : List Char) : Option (List Step) :=
  match fuel, cs with
  | _, [] => some []
  | fuel + 1, '.' :: cs => do
    let (name, cs) ← takeName cs
    return .entry name :: (← readSteps fuel cs)
  | fuel + 1, '[' :: cs => do
    let (index, cs) ← takeIndex cs
    return .place index :: (← readSteps fuel cs)
  | _, _ => none

def read? (cs : List Char) : Option Key := do
  let (root, cs) ← takeName cs
  return ⟨root, ← readSteps cs.length cs⟩

def ofString (s : String) : Key := (read? s.toList).getD ⟨s, []⟩

end Key

/--
A list with the value at `index` changed. The list is filled up with nothing where it is too short,
in front for an index from the end.
-/
def updateAt (change : Value → Value) (values : List Value) (index : Int) : List Value :=
  if 0 ≤ index then
    let place := index.toNat
    (values ++ List.replicate (place + 1 - values.length) Value.nothing).modify place change
  else
    let fromEnd := (-index).toNat
    (List.replicate (fromEnd - values.length) Value.nothing ++ values).modify
      (values.length - fromEnd) change

/--
A value with what some steps lead to changed. Steps make the tables and lists that they need.
-/
def Value.update (change : Value → Value) : List Step → Value → Value
  | [], value => change value
  | .entry name :: steps, value =>
    .table (value.entries.put name (update change steps (value.entries.at name)))
  | .place index :: steps, value => .list (updateAt (update change steps) value.values index)

def Entries.setEntry (settings : Entries) (key : String) (value : Value) : Entries :=
  let key := Key.ofString key
  settings.put key.root ((settings.at key.root).update (·.overlay value) key.steps)

def Entries.setAll (settings layer : Entries) : Entries :=
  layer.foldl (fun settings (key, value) => settings.setEntry key value) settings

end RunnerKit.Settings
