import RunnerKit.Binary64.Nearest
import RunnerKit.Binary64.Shortest
import RunnerKit.Text.Case
/-!
This module contains the values that settings are given as before anybody knows which settings there
are, and how one layer of them is put over another. Tables are merged entry by entry, anything else
replaces.
-/

namespace RunnerKit.Settings

inductive Value where
  | nothing
  | flag (b : Bool)
  | integer (n : Int)
  | number (x : Binary64)
  | text (s : String)
  | list (values : List Value)
  | table (entries : List (String × Value))
  deriving Repr, Inhabited

abbrev Entries := List (String × Value)

def Entries.put (key : String) (value : Value) : Entries → Entries
  | [] => [(key, value)]
  | (other, old) :: entries =>
    if other = key then (key, value) :: entries else (other, old) :: Entries.put key value entries

def Entries.at (entries : Entries) (key : String) : Value :=
  (entries.lookup key).getD .nothing

namespace Value

def entries : Value → Entries
  | table entries => entries
  | _ => []

def values : Value → List Value
  | list values => values
  | _ => []

mutual

def overlay (base : Value) : Value → Value
  | .table entries => .table (overlayAll base.entries entries)
  | value => value

def overlayAll (base : Entries) : Entries → Entries
  | [] => base
  | (key, value) :: entries => overlayAll (base.put key ((base.at key).overlay value)) entries

end

def text? : Value → Option String
  | text s => some s
  | flag b => some (toString b)
  | integer n => some (toString n)
  | number x => some x.text
  | nothing | list _ | table _ => none

/--
The flag that a scalar stands for where a flag is wanted. Every number but zero is true, the NaN
too.
-/
def flag? : Value → Option Bool
  | flag b => some b
  | integer n => some (n != 0)
  | number x => some (!x.numEq .zero)
  | text s =>
    match asciiLower s with
    | "1" | "true" | "on" | "yes" => some true
    | "0" | "false" | "off" | "no" => some false
    | _ => none
  | nothing | list _ | table _ => none

end Value

end RunnerKit.Settings
