import RunnerKit.Binary64.Basic
/-!
This module contains the relevance of a match, a number from zero to one.
-/

namespace RunnerKit

namespace Binary64

def isUnit (x : Binary64) : Bool :=
  !x.isNaN && decide (0 ≤ x.rank) && decide (x.rank ≤ one.rank)

theorem isUnit_clampUnit {x : Binary64} (h : x.isNaN = false) : x.clampUnit.isUnit = true := by
  have hzero : zero.isNaN = false := by decide
  have hone : one.isNaN = false := by decide
  have hrank : zero.rank = 0 := by decide
  unfold clampUnit
  split
  · decide
  · split
    · decide
    · simp_all [lt, isUnit]

end Binary64

structure Relevance where
  value : Binary64
  unit : value.isUnit = true
  deriving DecidableEq, Repr

namespace Relevance

def min : Relevance := ⟨Binary64.zero, by decide⟩

def max : Relevance := ⟨Binary64.one, by decide⟩

instance : Inhabited Relevance := ⟨min⟩

/--
The relevance nearest to a number. What is no number counts as zero.
-/
def ofNumber (x : Binary64) : Relevance :=
  if h : x.isNaN = true then min
  else ⟨x.clampUnit, Binary64.isUnit_clampUnit (by simpa using h)⟩

def numEq (r s : Relevance) : Bool := r.value.numEq s.value

def partialCompare (r s : Relevance) : Option Ordering := r.value.partialCompare s.value

end Relevance

end RunnerKit
