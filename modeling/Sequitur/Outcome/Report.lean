/-
The report of an outcome as JSON.

The fields stand in a fixed order, and `error` is left out unless a text was malformed. A row is a flat object: first
the atoms with their values, then the fixed columns, and in the list of counterexamples the scenario. An atom may be
named like a fixed column; both entries are then written, and a reader that lets the last one win sees the fixed column.
-/
import Sequitur.Argument
import Sequitur.Json

namespace Sequitur

open Json

/-- the atoms of a row, one entry each -/
def Assignment.report (s : List (String × Bool)) : List (String × Json) := s.map fun p => (p.1, .bool p.2)

/-- a row of the table -/
def Row.fields (atoms : List String) (r : Row) : List (String × Json) :=
  Assignment.report (atoms.zip r.values) ++
    [("premises", bools r.premises), ("conclusion", .bool r.conclusion), ("ALL_PREMISES", .bool r.allPremises),
     ("VALID", .bool r.valid)]

/-- a counterexample: the same and its scenario -/
def Row.refutingFields (atoms : List String) (r : Row) : List (String × Json) :=
  r.fields atoms ++ [("scenario", .str (r.scenario atoms))]

def Role.report : Role → Json
  | premise i => .obj [("premise", .nat i)]
  | conclusion => .str "conclusion"

def Fault.report (f : Fault) : Json :=
  .obj [("formula", f.role.report), ("source", .str f.source), ("message", .str f.error.message),
    ("position", ofOption .nat f.error.position?)]

def Example.report (e : Example) : Json :=
  .obj [("scenario", .str e.scenario), ("values", .obj (Assignment.report e.values)), ("premises", bools e.premises),
    ("conclusion", .bool e.conclusion), ("explanation", .str e.explanation)]

def Outcome.report (o : Outcome) : Json :=
  .obj ([("isValid", .bool o.isValid), ("status", .str o.status.code), ("atoms", strs o.atoms),
      ("truthTable", .arr (o.rows.map fun r => .obj (r.fields o.atoms))),
      ("counterexamples", .arr (o.counterexamples.map fun r => .obj (r.refutingFields o.atoms))),
      ("example", ofOption Example.report o.example?), ("explanation", .str o.explanation)] ++
    (o.fault?.map fun f => ("error", f.report)).toList)

end Sequitur
