/-
Why a text is no formula. Each constructor is one cause; `position?` is the byte offset it points at, where it points at
one, and `message` is its wording.
-/
import Sequitur.Token.Lexer

namespace Sequitur

inductive SyntaxError where
  /-- the text holds no token -/
  | empty
  | unknownChar (u : UnknownChar)
  /-- a connective without an operand after it, or a binary one without an operand before it -/
  | missingOperand (spelling : String) (position : Nat)
  /-- a parenthesis opened here is never closed -/
  | unclosed (position : Nat)
  /-- a parenthesis closed here was never opened -/
  | unmatched (position : Nat)
  /-- too many enclosing negations and parentheses, or too tall a formula -/
  | tooDeep (position : Nat)
  /-- a complete formula is followed by something that cannot continue it -/
  | expectedEnd (spelling : String) (position : Nat)
  /-- the same inside parentheses -/
  | expectedClosing (spelling : String) (position : Nat)
  deriving DecidableEq

namespace SyntaxError

def position? : SyntaxError → Option Nat
  | unknownChar u => some u.position
  | missingOperand _ p | unclosed p | unmatched p | tooDeep p => some p
  | empty | expectedEnd _ _ | expectedClosing _ _ => none

def message : SyntaxError → String
  | empty => "Formula is empty"
  | unknownChar u =>
    "Unrecognized character '" ++ u.char.toString ++ "' at position " ++ toString u.position
  | missingOperand op p => "Connective '" ++ op ++ "' at position " ++ toString p ++ " is missing an operand"
  | unclosed p => "Parenthesis opened at position " ++ toString p ++ " is never closed"
  | unmatched p => "Unmatched closing parenthesis at position " ++ toString p
  | tooDeep p => "Formula nests too deeply at position " ++ toString p
  | expectedEnd found p => "Expected end of input but got " ++ found ++ " at position " ++ toString p
  | expectedClosing found p => "Expected ) but got " ++ found ++ " at position " ++ toString p

end SyntaxError

end Sequitur
