/-
Tokens: what the lexer cuts a formula's text into.

A token has a kind, the spelling it was found with, and the byte offset of its first character in the text (UTF-8).
Fourteen spellings are symbols; words are ASCII, and four of them are keywords. The table of symbols is read in order,
but no spelling in it is a proper start of another, so the order never decides.
-/
import Sequitur.Formula

namespace Sequitur

/-- what a token does in a formula -/
inductive Kind where
  | connective (op : Connective)
  | not
  | opening
  | closing
  | ident
  deriving DecidableEq

structure Token where
  kind : Kind
  spelling : String
  /-- byte offset in the text -/
  position : Nat
  deriving DecidableEq

namespace Kind

/-- how a kind is shown on its own -/
def symbol : Kind → String
  | connective .and => "&"
  | connective .or => "|"
  | connective .impl => "->"
  | connective .equiv => "<->"
  | not => "!"
  | opening => "("
  | closing => ")"
  | ident => "identifier"

def isBinary : Kind → Bool
  | connective _ => true
  | _ => false

/-- whether an operand can begin with a token of this kind -/
def startsOperand : Kind → Bool
  | ident | not | opening => true
  | _ => false

end Kind

/-- the spellings that are no words, with what each of them stands for -/
def symbols : List (List Char × Kind) :=
  [(['<', '-', '>'], .connective .equiv),
   (['<', '=', '>'], .connective .equiv),
   (['-', '>'], .connective .impl),
   (['↔'], .connective .equiv),
   (['→'], .connective .impl),
   (['¬'], .not),
   (['!'], .not),
   (['~'], .not),
   (['∧'], .connective .and),
   (['&'], .connective .and),
   (['∨'], .connective .or),
   (['|'], .connective .or),
   (['('], .opening),
   ([')'], .closing)]

/-- what a word stands for: whole words in lower case are keywords, all others name variables -/
def wordKind (w : List Char) : Kind :=
  if w = ['n', 'o', 't'] then .not
  else if w = ['a', 'n', 'd'] then .connective .and
  else if w = ['o', 'r'] then .connective .or
  else if w = ['i', 'f', 'f'] then .connective .equiv
  else .ident

/-- a word begins with an ASCII letter -/
def isWordStart (c : Char) : Bool := c.isAlpha

/-- and goes on with ASCII letters, digits and underscores -/
def isWordPart (c : Char) : Bool := c.isAlphanum || c == '_'

end Sequitur
