/-
Module: DatasetLineage.Text.CodePoints
Purpose: Sets and maps of code points in the compact form in which character properties are
  tabulated. A set is a list of closed intervals in ascending order; a case map is a list of
  ascending runs, each of which moves every `step`-th code point by one fixed distance. A search
  stops at the first entry that lies beyond the code point.
Main exports: CodePoints.holds, CaseRun, CaseRun.image?
-/

namespace DatasetLineage.Text

/-- A set of code points: closed intervals in ascending order. -/
abbrev CodePoints := List (Nat × Nat)

/-- Membership of a code point in a set. -/
def CodePoints.holds : CodePoints → Nat → Bool
  | [], _ => false
  | (first, last) :: rest, n => if n < first then false else n ≤ last || holds rest n

/-- One run of a case map: `first`, `first + step`, … up to `last` go to `image`, `image + step`
    and so on. -/
structure CaseRun where
  first : Nat
  last : Nat
  step : Nat
  image : Nat
deriving DecidableEq, Repr

/-- The image of a code point under ascending runs, if one of them moves it. -/
def CaseRun.image? : List CaseRun → Nat → Option Nat
  | [], _ => none
  | run :: rest, n =>
    if n < run.first then none
    else if n ≤ run.last then
      if (n - run.first) % run.step = 0 then some (run.image + (n - run.first)) else none
    else image? rest n

end DatasetLineage.Text
