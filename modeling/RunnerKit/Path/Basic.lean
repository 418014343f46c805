import RunnerKit.Text.Lossy
/-!
This module contains paths as they are spelled and the components they are compared by.
-/

namespace RunnerKit

abbrev Name := List UInt8

/--
A path as somebody spelled it, in any bytes. Two spellings may name the same place, so places are
compared through `Path.components`, and equality of spellings is equality of values.
-/
structure Path where
  bytes : List UInt8
  deriving DecidableEq, Repr, Inhabited

inductive Component where
  /-- the slash that begins an absolute path -/
  | root
  /-- a dot that begins a relative path; no other dot counts -/
  | current
  /-- two dots -/
  | parent
  | normal (name : Name)
  deriving DecidableEq, Repr, Inhabited

def Component.rank : Component → Nat
  | .root => 0
  | .current => 1
  | .parent => 2
  | .normal _ => 3

instance : Ord Component where
  compare
    | .normal a, .normal b => compare a b
    | a, b => compare a.rank b.rank

namespace Path

def slash : UInt8 := 47
def dot : UInt8 := 46

def ofString (s : String) : Path := ⟨utf8Bytes s⟩

def display (p : Path) : String :=
  String.ofList (decodeLossy p.bytes)

def isEmpty (p : Path) : Bool := p.bytes.isEmpty

def isAbsolute (p : Path) : Bool := p.bytes.head? == some slash

/--
The stretches between the slashes. There is always one, and it may be empty.
-/
def splitSlashes : List UInt8 → List Name
  | [] => [[]]
  | b :: bs =>
    match splitSlashes bs with
    | [] => [[b]]
    | name :: names => if b = slash then [] :: name :: names else (b :: name) :: names

def joinSlashes : List Name → List UInt8
  | [] => []
  | [name] => name
  | name :: names => name ++ slash :: joinSlashes names

inductive Start where
  | root | current | none
  deriving DecidableEq, Repr

def Start.bytes : Start → List UInt8
  | .root => [slash]
  | .current => [dot]
  | .none => []

def Start.components : Start → List Component
  | .root => [.root]
  | .current => [.current]
  | .none => []

def split (p : Path) : Start × List UInt8 :=
  match p.bytes with
  | [] => (.none, [])
  | b :: bs =>
    if b = slash then (.root, bs)
    else if b = dot ∧ (bs = [] ∨ bs.head? = some slash) then (.current, bs)
    else (.none, b :: bs)

def isIgnored (name : Name) : Bool :=
  name == [] || name == [dot]

def componentOfName (name : Name) : Component :=
  if name = [dot, dot] then .parent else .normal name

def components (p : Path) : List Component :=
  let (start, body) := p.split
  start.components ++ (((splitSlashes body).filter (!isIgnored ·)).map componentOfName)

def SamePlace (p q : Path) : Prop := p.components = q.components

instance (p q : Path) : Decidable (p.SamePlace q) :=
  inferInstanceAs (Decidable (p.components = q.components))

def startsWith (p q : Path) : Bool :=
  q.components.isPrefixOf p.components

def dropIgnoredEnd (names : List Name) : List Name :=
  (names.reverse.dropWhile isIgnored).reverse

/--
The path without its last component, in the spelling it had. An absolute path has the root as its
last parent, and the empty path has none.
-/
def parent? (p : Path) : Option Path :=
  let (start, body) := p.split
  match dropIgnoredEnd (splitSlashes body) with
  | [] => if start = .current then some ⟨[]⟩ else none
  | names => some ⟨start.bytes ++ joinSlashes (dropIgnoredEnd names.dropLast)⟩

/--
`q` as seen from `p`: an absolute `q` stays as it is, any other is put after `p`.
-/
def join (p q : Path) : Path :=
  if q.isAbsolute then q
  else if p.isEmpty ∨ p.bytes.getLast? = some slash then ⟨p.bytes ++ q.bytes⟩
  else ⟨p.bytes ++ slash :: q.bytes⟩

def fileName? (p : Path) : Option Name :=
  match p.components.getLast? with
  | some (.normal name) => some name
  | _ => none

/--
The part of the file name after its last dot. A dot that begins the name does not count.
-/
def extension? (p : Path) : Option Name :=
  p.fileName?.bind fun name =>
    let after := (name.reverse.takeWhile (· != dot)).reverse
    let before := name.take (name.length - after.length - 1)
    if after.length = name.length ∨ before.isEmpty then none else some after

end Path

end RunnerKit
