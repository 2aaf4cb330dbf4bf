/-
Evaluation under a partial interpretation.

Both operands of a connective are always evaluated, the left one first, so an unbound atom is reported wherever it
stands, even when the other operand already decides the value; the one reported is the leftmost.
-/
import Sequitur.Formula

namespace Sequitur

/-- an interpretation gives some names a truth value -/
abbrev Interpretation := String → Option Bool

/-- an atom that the interpretation leaves open -/
structure Unbound where
  atom : String
  deriving DecidableEq

def Unbound.message (e : Unbound) : String :=
  "Atom '" ++ e.atom ++ "' has no truth value assigned"

namespace Formula

def eval (I : Interpretation) : Formula → Except Unbound Bool
  | var a =>
    match I a with
    | some b => .ok b
    | none => .error ⟨a⟩
  | not f => do
    let b ← f.eval I
    return !b
  | bin op l r => do
    let x ← l.eval I
    let y ← r.eval I
    return op.apply x y

end Formula

end Sequitur
