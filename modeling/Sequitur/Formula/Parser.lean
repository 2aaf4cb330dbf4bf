/-
The parser.

Binding strength grows from `<->` over `->`, `|` and `&` to negation, and every binary connective folds to the left:
`a -> b -> c` reads as `(a -> b) -> c`. A `Reader` reads one subformula off the front of the tokens and hands back the
rest. `chain` reads operands joined by one connective, `formulaOf` stacks the four chains, and `unary` reads a negation,
a group or a variable.

Two limits keep formulas shallow. `unary` counts down the room left for enclosing negations and groups, which is also
what its recursion runs on; each node built is measured against `maxHeight`. A reader is told the unknown character that
ended the tokens, if one did, so that where the tokens run out it can tell a lexical failure from the end of the text.
-/
import Sequitur.Formula
import Sequitur.SyntaxError

namespace Sequitur

/-- how many negations and groups may enclose a token -/
def maxNesting : Nat := 128

/-- how tall a formula may be -/
def maxHeight : Nat := 1024

/-- a formula under construction, with its height -/
structure Sub where
  formula : Formula
  height : Nat
  deriving DecidableEq

namespace Sub

def var (name : String) : Sub := ⟨.var name, 1⟩

/-- refuses a formula that is too tall; `position` is that of its connective -/
def bounded (formula : Formula) (height position : Nat) : Except SyntaxError Sub :=
  if height ≤ maxHeight then .ok ⟨formula, height⟩ else .error (.tooDeep position)

def negate (s : Sub) (position : Nat) : Except SyntaxError Sub :=
  bounded (.not s.formula) (s.height + 1) position

def join (left : Sub) (op : Connective) (right : Sub) (position : Nat) : Except SyntaxError Sub :=
  bounded (.bin op left.formula right.formula) (max left.height right.height + 1) position

end Sub

/-- reads a subformula off the front and returns the tokens after it -/
abbrev Reader := List Token → Except SyntaxError (Sub × List Token)

namespace Parser

/-- the error where the tokens run out: a lexical failure comes before any other -/
def atEnd (fault : Option UnknownChar) (e : SyntaxError) : SyntaxError :=
  match fault with
  | some u => .unknownChar u
  | none => e

/-- something that can start an operand has to follow a connective -/
def operandAfter (fault : Option UnknownChar) (op : Token) : List Token → Except SyntaxError Unit
  | [] => .error (atEnd fault (.missingOperand op.spelling op.position))
  | t :: _ => if t.kind.startsOperand then .ok () else .error (.missingOperand op.spelling op.position)

/-- the end of a group that was opened at `opened` -/
def close (fault : Option UnknownChar) (opened : Nat) (sub : Sub) : Reader
  | [] => .error (atEnd fault (.unclosed opened))
  | t :: rest =>
    if t.kind = .closing then .ok (sub, rest) else .error (.expectedClosing t.spelling t.position)

/-- goes on with `left` as long as `op` follows; each turn uses tokens up, so `bound` may be the tokens themselves -/
def more (fault : Option UnknownChar) (op : Connective) (operand : Reader) : (bound : List Token) → Sub → Reader
  | [], left, rest => .ok (left, rest)
  | _ :: _, left, [] => .ok (left, [])
  | _ :: bound, left, t :: rest =>
    if t.kind = .connective op then do
      operandAfter fault t rest
      let (right, rest) ← operand rest
      let left ← left.join op right t.position
      more fault op operand bound left rest
    else
      .ok (left, t :: rest)

/-- operands joined by `op`, folded to the left -/
def chain (fault : Option UnknownChar) (op : Connective) (operand : Reader) : Reader := fun tokens => do
  let (first, rest) ← operand tokens
  more fault op operand rest first rest

/-- a formula whose operands `unary` reads -/
def formulaOf (fault : Option UnknownChar) (unary : Reader) : Reader :=
  chain fault .equiv (chain fault .impl (chain fault .or (chain fault .and unary)))

/-- goes one level deeper, if there is room for one -/
def deeper (inner : Option Reader) (position : Nat) (tokens : List Token) : Except SyntaxError (Sub × List Token) :=
  match inner with
  | some read => read tokens
  | none => .error (.tooDeep position)

/-- a negation, a group or a variable; `inner` reads such operands one level deeper -/
def unaryOf (fault : Option UnknownChar) (inner : Option Reader) : Reader
  | [] => .error (atEnd fault .empty)
  | t :: rest =>
    match t.kind with
    | .ident => .ok (.var t.spelling, rest)
    | .connective _ => .error (.missingOperand t.spelling t.position)
    | .closing => .error (.unmatched t.position)
    | .not => do
      operandAfter fault t rest
      let (sub, rest) ← deeper inner t.position rest
      let sub ← sub.negate t.position
      return (sub, rest)
    | .opening =>
      if rest = [] ∧ fault = none then .error (.unclosed t.position)
      else do
        let (sub, rest) ← deeper (inner.map (formulaOf fault)) t.position rest
        close fault t.position sub rest

/-- operands with `room` levels of negations and groups left -/
def unary (fault : Option UnknownChar) : (room : Nat) → Reader
  | 0 => unaryOf fault none
  | room + 1 => unaryOf fault (some (unary fault room))

/-- formulas with `room` levels left -/
def formula (fault : Option UnknownChar) (room : Nat) : Reader := formulaOf fault (unary fault room)

/-- nothing may follow a complete formula -/
def finish (fault : Option UnknownChar) (f : Formula) : List Token → Except SyntaxError Formula
  | [] =>
    match fault with
    | some u => .error (.unknownChar u)
    | none => .ok f
  | t :: _ =>
    if t.kind = .closing then .error (.unmatched t.position) else .error (.expectedEnd t.spelling t.position)

/-- reads a whole text from its tokens -/
def whole (l : Lexed) : Except SyntaxError Formula := do
  let (sub, rest) ← formula l.fault maxNesting l.tokens
  finish l.fault sub.formula rest

end Parser

/-- the formula that a text spells -/
def Formula.parse (text : String) : Except SyntaxError Formula := Parser.whole (lex text)

end Sequitur
