/-
Settings, from variables of the environment and from JSON.

A variable that is missing leaves the default. The ceiling on atoms is a decimal number of at most 64 bits, with blanks
around it and one plus sign before it allowed; anything else leaves the default as well. It is kept as it was given and
bounded only where it is used.
-/
import Sequitur.Argument
import Sequitur.Json.Record
import Sequitur.Text.Blank
import Sequitur.Text.Decimal

namespace Sequitur

open Text

/-- a natural number of at most 64 bits in decimal digits, perhaps after a plus sign -/
def decimal64? (cs : List Char) : Option Nat :=
  let ds := match cs with
    | '+' :: rest => rest
    | cs => cs
  if ds ≠ [] ∧ ds.all Char.isDigit then (decimal? 20 ds).filter fun n => n < UInt64.size else none

structure Settings where
  bind : String
  limits : Limits
  statePath : String
  deriving DecidableEq

namespace Settings

def bindVariable : String := "TRUTHTABLE_BIND"

def maxAtomsVariable : String := "TRUTHTABLE_MAX_ATOMS"

def stateVariable : String := "TRUTHTABLE_STATE"

/-- the ceiling that a variable's value gives -/
def limitsOf (value : Option String) : Limits :=
  match value.bind fun v => decimal64? (trim v.toList) with
  | some n => ⟨n⟩
  | none => .standard

/-- the settings that looking up each variable gives -/
def ofVariables (look : String → Option String) : Settings :=
  ⟨(look bindVariable).getD "127.0.0.1:7000", limitsOf (look maxAtomsVariable),
    (look stateVariable).getD "truthtable-state.json"⟩

end Settings

namespace Limits

def report (l : Limits) : Json := .obj [("maxAtoms", .nat l.maxAtoms)]

def ofJson? (v : Json) : Option Limits :=
  match v.record? ["maxAtoms"] with
  | some [n] => (Json.required Json.nat64? n).map fun n => ⟨n.toNat⟩
  | _ => none

end Limits

end Sequitur
