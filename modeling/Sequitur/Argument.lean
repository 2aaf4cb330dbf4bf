/-
Arguments and the outcome of testing them.

An argument has premises and, as a rule, a conclusion; both come as texts or as formulas. Testing it ends in one of five
ways, tried in this order: there is no premise, there is no conclusion, a text is no formula, there are more atoms than
may be enumerated, or the truth table is complete. Only the last outcome carries rows, so no table is ever cut short.
What an outcome says (`status`, `isValid`, `explanation`, `example?`) is read off its constructor.
-/
import Sequitur.Formula.Parser
import Sequitur.Table

namespace Sequitur

structure Argument (α : Type) where
  premises : List α
  conclusion : Option α
  deriving DecidableEq

/-- where a formula stands in an argument -/
inductive Role where
  | premise (index : Nat)
  | conclusion
  deriving DecidableEq

def Role.name : Role → String
  | premise i => "premise " ++ toString i
  | conclusion => "conclusion"

/-- the text that is no formula, and why -/
structure Fault where
  role : Role
  source : String
  error : SyntaxError
  deriving DecidableEq

/-- ceilings for one test -/
structure Limits where
  maxAtoms : Nat
  deriving DecidableEq

namespace Limits

/-- a configured ceiling never raises the enumeration above this -/
def hardLimit : Nat := 24

def standard : Limits := ⟨20⟩

/-- the ceiling in force -/
def atomLimit (l : Limits) : Nat := min l.maxAtoms hardLimit

end Limits

inductive Status where
  | checked
  | noPremises
  | noConclusion
  | malformed
  | tooManyAtoms
  deriving DecidableEq

/-- the name of a status in reports -/
def Status.code : Status → String
  | checked => "CHECKED"
  | noPremises => "INSUFFICIENT_PREMISES"
  | noConclusion => "MISSING_CONCLUSION"
  | malformed => "PARSE_ERROR"
  | tooManyAtoms => "RESOURCE_LIMIT_EXCEEDED"

/-- a counterexample for the reader -/
structure Example where
  scenario : String
  values : Assignment
  premises : List Bool
  conclusion : Bool
  explanation : String
  deriving DecidableEq

inductive Outcome where
  | noPremises
  | noConclusion
  | malformed (fault : Fault)
  | tooManyAtoms (count limit : Nat)
  | checked (table : Table)
  deriving DecidableEq

namespace Outcome

def status : Outcome → Status
  | noPremises => .noPremises
  | noConclusion => .noConclusion
  | malformed _ => .malformed
  | tooManyAtoms _ _ => .tooManyAtoms
  | checked _ => .checked

def atoms : Outcome → List String
  | checked t => t.atoms
  | _ => []

def rows : Outcome → List Row
  | checked t => t.rows
  | _ => []

def counterexamples : Outcome → List Row
  | checked t => t.counterexamples
  | _ => []

/-- an argument is valid when its table is complete and refutes it nowhere -/
def isValid : Outcome → Bool
  | checked t => t.counterexamples.isEmpty
  | _ => false

/-- the first counterexample -/
def example? (o : Outcome) : Option Example :=
  o.counterexamples.head?.map fun r =>
    ⟨r.scenario o.atoms, r.assignment o.atoms, r.premises, r.conclusion,
      "all premises are true but the conclusion is false"⟩

def explanation : Outcome → String
  | noPremises => "insufficient premises"
  | noConclusion => "no conclusion — validity cannot be tested"
  | malformed _ => "formula parse error"
  | tooManyAtoms count limit =>
    toString count ++ " distinct atoms exceed the enumeration limit of " ++ toString limit
  | checked t =>
    if t.counterexamples.isEmpty then "in no assignment are all premises true while the conclusion is false"
    else "at least one assignment makes all premises true and the conclusion false"

def fault? : Outcome → Option Fault
  | malformed fault => some fault
  | _ => none

end Outcome

namespace Argument

/-- tests an argument given as formulas -/
def test (limits : Limits) (arg : Argument Formula) : Outcome :=
  match arg.premises, arg.conclusion with
  | [], _ => .noPremises
  | _ :: _, none => .noConclusion
  | p :: ps, some c =>
    let found := Sequitur.atoms (p :: ps ++ [c])
    if found.length ≤ limits.atomLimit then .checked (Table.enumerate (p :: ps) c found)
    else .tooManyAtoms found.length limits.atomLimit

/-- reads the premises from the one numbered `index` on; the first that is no formula is the fault -/
def parsePremises (index : Nat) : List String → Except Fault (List Formula)
  | [] => .ok []
  | p :: ps =>
    match Formula.parse p with
    | .error e => .error ⟨.premise index, p, e⟩
    | .ok f => (parsePremises (index + 1) ps).map (f :: ·)

def parseConclusion (c : String) : Except Fault Formula :=
  match Formula.parse c with
  | .error e => .error ⟨.conclusion, c, e⟩
  | .ok f => .ok f

/-- tests an argument given as texts -/
def check (limits : Limits) (arg : Argument String) : Outcome :=
  match arg.premises, arg.conclusion with
  | [], _ => .noPremises
  | _ :: _, none => .noConclusion
  | p :: ps, some c =>
    match parsePremises 0 (p :: ps) with
    | .error fault => .malformed fault
    | .ok fs =>
      match parseConclusion c with
      | .error fault => .malformed fault
      | .ok f => test limits ⟨fs, some f⟩

end Argument

end Sequitur
