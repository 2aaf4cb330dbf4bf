/-
Analyses: what is kept of an outcome.

An analysis holds the argument as it was given, the verdict without its table, and a seal over all of that. The seal is
made from `sealInfo`, a line in which the fields stand between bars; the texts of the argument are quoted there, so that
they cannot run into their neighbours, while atoms and explanation stand as they are.

Main statement: `isSealed_sealed`.
-/
import Sequitur.Argument
import Sequitur.Instant.Printer
import Sequitur.Instant.Reader
import Sequitur.Json.Reader
import Sequitur.Json.Record
import Sequitur.Seal
import Sequitur.Text.Quoted

namespace Sequitur

/-- a verdict without its table -/
structure Summary where
  isValid : Bool
  status : Status
  atoms : List String
  counterexampleCount : UInt64
  explanation : String
  deriving DecidableEq

def Outcome.summary (o : Outcome) : Summary :=
  ⟨o.isValid, o.status, o.atoms, UInt64.ofNat o.counterexamples.length, o.explanation⟩

structure Analysis where
  id : UInt64
  createdAt : Instant
  argument : Argument String
  summary : Summary
  sealText : String
  deriving DecidableEq

def Status.all : List Status := [.checked, .noPremises, .noConclusion, .malformed, .tooManyAtoms]

/-- the status with a name -/
def Status.ofCode? (code : String) : Option Status := Status.all.find? fun s => s.code == code

namespace Analysis

/-- the line that is sealed -/
def sealInfo (a : Analysis) : String :=
  "analysis|" ++ toString a.id.toNat ++ "|" ++ a.createdAt.renderOffset ++ "|" ++
    String.ofList (Text.quotedList a.argument.premises) ++ "|" ++
    String.ofList (Text.quotedOption a.argument.conclusion) ++ "|" ++ truthWord a.summary.isValid ++ "|" ++
    a.summary.status.code ++ "|[" ++ ", ".intercalate a.summary.atoms ++ "]|" ++
    toString a.summary.counterexampleCount.toNat ++ "|" ++ a.summary.explanation

/-- the same analysis under its own seal -/
def sealed (a : Analysis) : Analysis := { a with sealText := sealOf a.sealInfo }

/-- whether the seal fits -/
def isSealed (a : Analysis) : Bool := verifies a.sealInfo a.sealText

/-- the seal is no part of what is sealed -/
theorem sealInfo_sealed (a : Analysis) : a.sealed.sealInfo = a.sealInfo := rfl

theorem isSealed_sealed (a : Analysis) : a.sealed.isSealed = true := by
  rw [isSealed, sealInfo_sealed]
  exact verifies_sealOf a.sealInfo

/-! ## as JSON -/

def fieldNames : List String :=
  ["id", "createdAt", "premises", "conclusion", "isValid", "status", "atoms", "counterexampleCount", "explanation",
   "seal"]

def report (a : Analysis) : Json :=
  .obj [("id", .nat a.id.toNat), ("createdAt", .str a.createdAt.render), ("premises", .strs a.argument.premises),
    ("conclusion", .ofOption .str a.argument.conclusion), ("isValid", .bool a.summary.isValid),
    ("status", .str a.summary.status.code), ("atoms", .strs a.summary.atoms),
    ("counterexampleCount", .nat a.summary.counterexampleCount.toNat), ("explanation", .str a.summary.explanation),
    ("seal", .str a.sealText)]

/-- a status is named by a text, or by an object whose only field has the name and is null -/
def status? : Json → Option Status
  | .str code => Status.ofCode? code
  | .obj [(code, .null)] => Status.ofCode? code
  | _ => none

def instant? (v : Json) : Option Instant := v.str?.bind Instant.read?

/-- the analysis that a JSON value holds -/
def ofJson? (v : Json) : Option Analysis :=
  match v.record? fieldNames with
  | some [id, createdAt, premises, conclusion, isValid, status, atoms, count, explanation, sealText] => do
    let id ← Json.required Json.nat64? id
    let createdAt ← Json.required instant? createdAt
    let premises ← Json.required (Json.list? Json.str?) premises
    let conclusion ← Json.optional Json.str? conclusion
    let isValid ← Json.required Json.bool? isValid
    let status ← Json.required status? status
    let atoms ← Json.required (Json.list? Json.str?) atoms
    let count ← Json.required Json.nat64? count
    let explanation ← Json.required Json.str? explanation
    let sealText ← Json.required Json.str? sealText
    return ⟨id, createdAt, ⟨premises, conclusion⟩, ⟨isValid, status, atoms, count, explanation⟩, sealText⟩
  | _ => none

/-- the analysis that a JSON text holds -/
def read? (s : String) : Option Analysis := (Json.read? s).bind ofJson?

end Analysis

end Sequitur
