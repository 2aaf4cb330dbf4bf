/-
The canonical spelling of a formula: every binary node stands in parentheses, a negation directly before its operand,
and a variable as its bare name. No precedence is needed to read it back.
-/
import Sequitur.Formula

namespace Sequitur

/-- how a connective is spelled in canonical form -/
def Connective.spelling : Connective → String
  | .and => "∧"
  | .or => "∨"
  | .impl => "->"
  | .equiv => "<->"

/-- the canonical spelling -/
def Formula.render : Formula → String
  | .var a => a
  | .not f => "¬" ++ f.render
  | .bin op l r => "(" ++ l.render ++ " " ++ op.spelling ++ " " ++ r.render ++ ")"

end Sequitur
