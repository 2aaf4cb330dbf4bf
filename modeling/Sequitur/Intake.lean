/-
Which arguments are taken in.

The archive and the service refuse arguments that are too large, before anything else is done with them. Sizes are
counted in bytes of UTF-8. The number of premises is looked at first, then the premises, then the conclusion.
-/
import Sequitur.Argument
import Sequitur.Text.Blank

namespace Sequitur

open Text

/-- why an argument is refused -/
inductive Refusal where
  | tooManyPremises (count : Nat)
  | longPremise
  | longConclusion
  deriving DecidableEq

def maxPremises : Nat := 64

/-- how many bytes a formula's text may have -/
def maxFormulaSize : Nat := 1024

def Refusal.message : Refusal → String
  | tooManyPremises count =>
    toString count ++ " premises given, at most " ++ toString maxPremises ++ " are accepted"
  | longPremise => "Analysis premise exceeds size limit of " ++ toString maxFormulaSize
  | longConclusion => "Analysis conclusion exceeds size limit of " ++ toString maxFormulaSize

def isLong (formula : String) : Bool := maxFormulaSize < byteSize formula.toList

/-- why an argument is not taken in, if it is not -/
def Argument.refusal? (arg : Argument String) : Option Refusal :=
  if maxPremises < arg.premises.length then some (.tooManyPremises arg.premises.length)
  else if arg.premises.any isLong then some .longPremise
  else if arg.conclusion.any isLong then some .longConclusion
  else none

end Sequitur
