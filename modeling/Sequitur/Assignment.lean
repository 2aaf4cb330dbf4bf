/-
Assignments: finitely many names with a truth value each, in ascending order of the names. Giving a name a value again
replaces the old one.
-/
import Sequitur.Formula.Eval

namespace Sequitur

/-- names in ascending order, each with its truth value -/
abbrev Assignment := List (String × Bool)

namespace Assignment

/-- gives a name a value -/
def put (a : String) (b : Bool) : Assignment → Assignment
  | [] => [(a, b)]
  | (c, d) :: rest =>
    if a = c then (a, b) :: rest else if a < c then (a, b) :: (c, d) :: rest else (c, d) :: put a b rest

/-- of a name that comes up several times the last value stays -/
def ofList (pairs : List (String × Bool)) : Assignment :=
  pairs.foldl (fun acc p => put p.1 p.2 acc) []

/-- the value of a name -/
def value? (s : Assignment) : Interpretation := fun a => s.lookup a

theorem value?_cons (a : String) (b : Bool) (s : Assignment) (x : String) :
    value? ((a, b) :: s) x = if x = a then some b else value? s x := by
  by_cases h : x = a
  · simp [value?, h]
  · have hb : (x == a) = false := by simpa using h
    simp [value?, List.lookup_cons, h, hb]

end Assignment

end Sequitur
