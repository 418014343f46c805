import RunnerKit.Settings.Value
/-!
This module contains the tables of a TOML document while it is read. A table remembers how it came
about, because that decides what may still be added to it.
-/

namespace RunnerKit.Settings.Toml

inductive Origin where
  /-- under a header of its own -/
  | header
  /-- on the way to another header -/
  | implied
  /-- on the way to the last name of a key -/
  | dotted
  deriving DecidableEq, Repr

inductive Node where
  | value (v : Value)
  | table (origin : Origin) (nodes : List (String × Node))
  /-- the tables under headers that are repeated, the current one last -/
  | tables (items : List (List (String × Node)))
  deriving Repr, Inhabited

abbrev Nodes := List (String × Node)

def Nodes.put (name : String) (node : Node) : Nodes → Nodes
  | [] => [(name, node)]
  | (other, old) :: nodes =>
    if other = name then (name, node) :: nodes else (other, old) :: Nodes.put name node nodes

mutual

def Node.toValue : Node → Value
  | .value v => v
  | .table _ nodes => .table (entriesOf nodes)
  | .tables items => .list (valuesOf items)

def entriesOf : Nodes → Entries
  | [] => []
  | (name, node) :: nodes => (name, node.toValue) :: entriesOf nodes

def valuesOf : List Nodes → List Value
  | [] => []
  | nodes :: items => .table (entriesOf nodes) :: valuesOf items

end

namespace Nodes

/--
Puts a value where a key says. The tables on its way must have come about through keys; only below
the first of them may one have been implied by a header.
-/
def insert (value : Value) : List String → Nodes → Option Nodes
  | [], _ => none
  | [name], nodes =>
    if (nodes.lookup name).isSome then none else some (nodes.put name (.value value))
  | name :: next :: names, nodes =>
    match nodes.lookup name with
    | none => do return nodes.put name (.table .dotted (← insert value (next :: names) []))
    | some (.table origin inner) => do
      guard (origin == .dotted || (origin == .implied && !names.isEmpty))
      return nodes.put name (.table origin (← insert value (next :: names) inner))
    | some _ => none

/--
Changes the table that a header leads to. Tables on its way that are missing are implied by it.
-/
def alter (change : Nodes → Option Nodes) : List String → Nodes → Option Nodes
  | [], nodes => change nodes
  | name :: names, nodes =>
    match nodes.lookup name with
    | none => do return nodes.put name (.table .implied (← alter change names []))
    | some (.table origin inner) => do
      return nodes.put name (.table origin (← alter change names inner))
    | some (.tables items) => do
      let current ← items.getLast?
      return nodes.put name (.tables (items.dropLast ++ [← alter change names current]))
    | some (.value _) => none

/--
Opens the table of a header. Only a table that was implied so far may be there already.
-/
def openTable (name : String) (nodes : Nodes) : Option Nodes :=
  match nodes.lookup name with
  | none => some (nodes.put name (.table .header []))
  | some (.table .implied inner) => some (nodes.put name (.table .header inner))
  | some _ => none

def openItem (name : String) (nodes : Nodes) : Option Nodes :=
  match nodes.lookup name with
  | none => some (nodes.put name (.tables [[]]))
  | some (.tables items) => some (nodes.put name (.tables (items ++ [[]])))
  | some _ => none

end Nodes

end RunnerKit.Settings.Toml
