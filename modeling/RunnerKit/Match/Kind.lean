/-!
This module contains the kinds of matches and the codes they have on the bus.
-/

namespace RunnerKit

/--
What kind of answer a match is. A code that the search host does not define is kept as it is.
-/
inductive MatchKind where
  | noMatch
  | completion
  | possible
  | helper
  | exact
  | other (code : Int32)
  deriving DecidableEq, Repr

namespace MatchKind

instance : Inhabited MatchKind := ⟨.possible⟩

def code : MatchKind → Int32
  | .noMatch => 0
  | .completion => 10
  | .possible => 30
  | .helper => 70
  | .exact => 100
  | .other code => code

def ofCode (code : Int32) : MatchKind :=
  if code = 0 then .noMatch
  else if code = 10 then .completion
  else if code = 30 then .possible
  else if code = 70 then .helper
  else if code = 100 then .exact
  else .other code

def text : MatchKind → String
  | .noMatch => "no-match"
  | .completion => "completion"
  | .possible => "possible"
  | .helper => "helper"
  | .exact => "exact"
  | .other code => "other(" ++ toString code ++ ")"

end MatchKind

end RunnerKit
