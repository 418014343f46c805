import RunnerKit.Match.Kind
import RunnerKit.Match.Property
import RunnerKit.Match.Relevance
/-!
This module contains the records that a runner exchanges with the search host: queries, matches and
actions.
-/

namespace RunnerKit

structure Query where
  text : String
  deriving DecidableEq, Repr

structure Match where
  /-- handed back when the match is chosen -/
  id : String
  text : String
  icon : String := ""
  kind : MatchKind := .possible
  relevance : Relevance := .min
  properties : Properties := .empty
  deriving Inhabited

inductive MatchStep where
  | icon (name : String)
  | kind (kind : MatchKind)
  | relevance (value : Binary64)
  | property (key : String) (value : PropertyValue)

namespace MatchStep

def subtext (text : String) : MatchStep := .property PropertyKey.subtext (.text text)

def category (text : String) : MatchStep := .property PropertyKey.category (.text text)

def multiline (flag : Bool) : MatchStep := .property PropertyKey.multiline (.flag flag)

def urls (urls : List String) : MatchStep := .property PropertyKey.urls (.texts urls)

def actions (ids : List String) : MatchStep := .property PropertyKey.actions (.texts ids)

end MatchStep

namespace Match

def step (m : Match) : MatchStep → Match
  | .icon name => { m with icon := name }
  | .kind kind => { m with kind }
  | .relevance value => { m with relevance := .ofNumber value }
  | .property key value => { m with properties := m.properties.insert key value }

def build (id text : String) (steps : List MatchStep) : Match :=
  steps.foldl step { id, text }

def numEq (m n : Match) : Bool :=
  m.id == n.id && m.text == n.text && m.icon == n.icon && m.kind == n.kind &&
    m.relevance.numEq n.relevance && m.properties.numEq n.properties

end Match

structure Action where
  id : String
  text : String
  icon : String
  deriving DecidableEq, Repr

end RunnerKit
