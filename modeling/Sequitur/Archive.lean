/-
The archive of analyses.

An archive holds analyses from the oldest to the newest and the id for the next one. It keeps at most 1024 of them:
adding one more lets the oldest go. The archive as a whole is saved as one JSON text at a place that may also be empty
or blocked. Opening a place trusts only what can be trusted: a text that does not decode counts as nothing, an analysis
whose seal does not fit is left out, and the next id is beyond every id in use.

When the place cannot be written, adding reports that, but the analysis is in memory and its id is used up.
-/
import Sequitur.Analysis
import Sequitur.Intake

namespace Sequitur

structure Archive where
  nextId : UInt64
  /-- from the oldest to the newest -/
  analyses : List Analysis
  deriving DecidableEq

/-- totals over an archive -/
structure Stats where
  total : Nat
  invalid : Nat
  deriving DecidableEq

namespace Archive

def empty : Archive := ⟨0, []⟩

/-- how many analyses are kept -/
def capacity : Nat := 1024

/-- the analysis that an argument gets when it is added now -/
def entry (a : Archive) (now : Instant) (arg : Argument String) (summary : Summary) : Analysis :=
  Analysis.sealed ⟨a.nextId, now, arg, summary, ""⟩

/-- takes an analysis in as the newest -/
def push (a : Archive) (x : Analysis) : Archive :=
  let all := a.analyses ++ [x]
  ⟨a.nextId + 1, all.drop (all.length - capacity)⟩

/-- the newest analyses, newest first -/
def recent (a : Archive) (n : Nat) : List Analysis := a.analyses.reverse.take n

def stats (a : Archive) : Stats :=
  ⟨a.analyses.length, (a.analyses.filter fun x => !x.summary.isValid).length⟩

/-! ## as JSON -/

def report (a : Archive) : Json :=
  .obj [("nextId", .nat a.nextId.toNat), ("analyses", .arr (a.analyses.map Analysis.report))]

def ofJson? (v : Json) : Option Archive :=
  match v.record? ["nextId", "analyses"] with
  | some [nextId, analyses] => do
    let nextId ← Json.required Json.nat64? nextId
    let analyses ← Json.required (Json.list? Analysis.ofJson?) analyses
    return ⟨nextId, analyses⟩
  | _ => none

def render (a : Archive) : String := a.report.render

def read? (s : String) : Option Archive := (Json.read? s).bind ofJson?

/-! ## trust -/

/-- the next id, or the one after the greatest in use where that is more -/
def freshId (nextId : UInt64) (analyses : List Analysis) : UInt64 :=
  match (analyses.map Analysis.id).max? with
  | some greatest => max nextId (greatest + 1)
  | none => nextId

/-- leaves out what is not rightly sealed -/
def trusted (a : Archive) : Archive :=
  let kept := a.analyses.filter Analysis.isSealed
  ⟨freshId a.nextId kept, kept⟩

end Archive

/-- where an archive is saved -/
structure Place where
  /-- the text of a file there, worked out only when it is read -/
  text : Option (Thunk String)
  /-- whether a file can be written there -/
  writable : Bool

namespace Place

/-- the text that reading finds, if it finds one -/
def content (p : Place) : Option String := p.text.map Thunk.get

@[ext] theorem ext {p q : Place} (hc : p.content = q.content) (hw : p.writable = q.writable) : p = q := by
  obtain ⟨t, b⟩ := p
  obtain ⟨u, c⟩ := q
  cases t <;> cases u <;> simp_all [content]
  exact Thunk.ext hc

instance : DecidableEq Place := fun p q =>
  decidable_of_iff (p.content = q.content ∧ p.writable = q.writable)
    ⟨fun h => Place.ext h.1 h.2, fun h => h ▸ ⟨rfl, rfl⟩⟩

/-- nothing stands there yet -/
def vacant : Place := ⟨none, true⟩

def file (content : Thunk String) : Place := ⟨some content, true⟩

/-- something stands there that can neither be read nor written as a file -/
def blocked : Place := ⟨none, false⟩

/-- the place after writing a file there, if that is possible -/
def write? (content : Thunk String) (p : Place) : Option Place :=
  if p.writable then some (file content) else none

end Place

/-- the archive that a place holds -/
def Archive.ofPlace (p : Place) : Archive := ((p.content.bind Archive.read?).getD .empty).trusted

/-- an archive and the place where it is saved -/
structure Store where
  archive : Archive
  place : Place
  deriving DecidableEq

/-- why an argument was not stored -/
inductive StoreError where
  | refused (r : Refusal)
  /-- the place could not be written -/
  | unwritable
  deriving DecidableEq

def StoreError.message : StoreError → String
  | refused r => r.message
  | unwritable => "Could not persist analysis"

namespace Store

/-- opens the archive at a place -/
def ofPlace (p : Place) : Store := ⟨.ofPlace p, p⟩

/-- opens the archive at the same place anew -/
def reload (s : Store) : Store := ofPlace s.place

/-- saves the archive -/
def flush (s : Store) : Option Store :=
  (s.place.write? s.archive.render).map fun p => { s with place := p }

/-- stores what is known of an argument -/
def add (s : Store) (now : Instant) (arg : Argument String) (summary : Summary) :
    Except StoreError Analysis × Store :=
  match arg.refusal? with
  | some r => (.error (.refused r), s)
  | none =>
    let x := s.archive.entry now arg summary
    let next : Store := { s with archive := s.archive.push x }
    match next.flush with
    | some saved => (.ok x, saved)
    | none => (.error .unwritable, next)

end Store

end Sequitur
