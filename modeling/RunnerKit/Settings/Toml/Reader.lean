import RunnerKit.Settings.Toml.Document
import RunnerKit.Settings.Toml.Scalar
/-!
This module contains the reading of settings that are written as TOML.
-/

namespace RunnerKit.Settings.Toml

open Reader

def maxNesting : Nat := 80

mutual

def value (nesting : Nat) : Nat → Reader Value
  | 0 => failure
  | fuel + 1 => do
    match ← peek? with
    | some '"' | some '\'' => return .text (← string)
    | some '[' =>
      guard (0 < nesting)
      expect ['[']
      return .list (← values (nesting - 1) fuel)
    | some '\x7b' =>
      guard (0 < nesting)
      expect ['\x7b']
      return .table (entriesOf (← members (nesting - 1) [] fuel))
    | _ => bare

def values (nesting : Nat) : Nat → Reader (List Value)
  | 0 => failure
  | fuel + 1 => do
    skipGap (← get).length
    if ← accept [']'] then return []
    let first ← value nesting fuel
    skipGap (← get).length
    if ← accept [','] then return first :: (← values nesting fuel)
    else
      expect [']']
      return [first]

def members (nesting : Nat) (nodes : Nodes) : Nat → Reader Nodes
  | 0 => failure
  | fuel + 1 => do
    skipGap (← get).length
    if ← accept ['\x7d'] then return nodes
    let names ← key (← get).length
    expect ['=']
    skipWhile isBlank
    let nodes ← nodes.insert (← value nesting fuel) names
    skipGap (← get).length
    if ← accept [','] then members nesting nodes fuel
    else
      expect ['\x7d']
      return nodes

end

structure Document where
  nodes : Nodes := []
  header : List String := []

namespace Document

def readHeader (d : Document) : Reader Document := do
  let repeated ← accept ['[']
  let names ← key (← get).length
  expect (if repeated then [']', ']'] else [']'])
  let name ← names.getLast?
  let openLast := if repeated then (·.openItem name) else (·.openTable name)
  let nodes ← d.nodes.alter openLast names.dropLast
  return { nodes, header := names }

def readMember (d : Document) : Reader Document := do
  let names ← key (← get).length
  expect ['=']
  skipWhile isBlank
  let v ← value maxNesting (2 * (← get).length + 2)
  return { d with nodes := ← d.nodes.alter (·.insert v names) d.header }

def readLines (d : Document) : Nat → Reader Document
  | 0 => failure
  | fuel + 1 => do
    skipGap (← get).length
    match ← peek? with
    | none => return d
    | some '[' =>
      expect ['[']
      let d ← d.readHeader
      endLine
      d.readLines fuel
    | some _ =>
      let d ← d.readMember
      endLine
      d.readLines fuel

end Document

def read? (s : List Char) : Option Entries := do
  let s := if s.head? = some '\uFEFF' then s.drop 1 else s
  let d ← (Document.readLines {} (s.length + 1)).readAll? s
  return entriesOf d.nodes

end RunnerKit.Settings.Toml
