/-
Rows of a truth table.

A row holds the values of the atoms in the order of the atoms, of the premises in the order they were given, and of the
conclusion. It is a counterexample when all premises are true and the conclusion is false; otherwise it is valid.
-/
import Sequitur.Assignment

namespace Sequitur

structure Row where
  values : List Bool
  premises : List Bool
  conclusion : Bool
  deriving DecidableEq

/-- how a truth value is shown -/
def truthWord : Bool → String
  | true => "true"
  | false => "false"

namespace Row

def allPremises (r : Row) : Bool := r.premises.all id

def valid (r : Row) : Bool := !r.allPremises || r.conclusion

def isCounterexample (r : Row) : Bool := r.allPremises && !r.conclusion

/-- the atoms with their values in this row; the shorter list decides how many -/
def assignment (r : Row) (atoms : List String) : Assignment := Assignment.ofList (atoms.zip r.values)

/-- the assignment in words, such as `P=true, Q=false` -/
def scenario (r : Row) (atoms : List String) : String :=
  ", ".intercalate ((atoms.zip r.values).map fun p => p.1 ++ "=" ++ truthWord p.2)

theorem valid_eq_not_isCounterexample (r : Row) : r.valid = !r.isCounterexample := by
  simp [valid, isCounterexample]

end Row

end Sequitur
