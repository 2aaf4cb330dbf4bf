/-
Propositional formulas and their classical meaning.

A formula is a variable, a negation, or two formulas joined by one of four connectives. Variables carry arbitrary names;
which names a text can spell is the lexer's business. `truth` is the classical truth value under a total interpretation
of all names, and everything the checker says is measured against it. `height` counts the nodes on the longest branch.
`occurrences` lists the variables as they are read from left to right.
-/
namespace Sequitur

/-- the binary connectives -/
inductive Connective where
  | and
  | or
  | impl
  | equiv
  deriving DecidableEq

/-- the truth table of a connective -/
def Connective.apply : Connective → Bool → Bool → Bool
  | .and, l, r => l && r
  | .or, l, r => l || r
  | .impl, l, r => !l || r
  | .equiv, l, r => l == r

inductive Formula where
  | var (name : String)
  | not (f : Formula)
  | bin (op : Connective) (l r : Formula)
  deriving DecidableEq

namespace Formula

/-- a variable has height 1, an inner node one more than its tallest child -/
def height : Formula → Nat
  | var _ => 1
  | not f => f.height + 1
  | bin _ l r => max l.height r.height + 1

/-- the names of the variables from left to right, repetitions kept -/
def occurrences : Formula → List String
  | var a => [a]
  | not f => f.occurrences
  | bin _ l r => l.occurrences ++ r.occurrences

/-- classical truth under a total interpretation -/
def truth (v : String → Bool) : Formula → Bool
  | var a => v a
  | not f => !f.truth v
  | bin op l r => op.apply (l.truth v) (r.truth v)

@[simp] theorem truth_var (v : String → Bool) (a : String) : (var a).truth v = v a := rfl

@[simp] theorem truth_not (v : String → Bool) (f : Formula) : (not f).truth v = !f.truth v := rfl

@[simp] theorem truth_bin (v : String → Bool) (op : Connective) (l r : Formula) :
    (bin op l r).truth v = op.apply (l.truth v) (r.truth v) := rfl

end Formula

end Sequitur
