/-
The request service.

A request has a method, a target and perhaps a body; the target says which path is meant. Tests of arguments and
additions to the archive come as POST requests with the argument as JSON; everything else is read with GET. An argument
is decoded and taken in before anything is done with it, so the two POST routes refuse the same bodies with the same
words. Only an addition changes the service.

Two things about bodies are left to the framework that the service runs in: the detail that it puts behind `Json deserialize
error`, and its default limit on their size (2 MiB), beyond which it answers with status 413 itself.

The clock is part of the state: it shows the instant that it was last set to.
-/
import Sequitur.Archive
import Sequitur.Outcome.Report

namespace Sequitur

structure Request where
  method : String
  /-- a path with its query, or a whole address -/
  target : String
  body : Option String
  deriving DecidableEq

inductive Response where
  /-- a JSON answer -/
  | json (body : Json)
  /-- an answer in plain text -/
  | page (body : String)
  /-- the request is at fault -/
  | refused (message : String)
  /-- the service is at fault -/
  | failed
  | notFound

structure Service where
  store : Store
  clock : Instant
  limits : Limits
  deriving DecidableEq

/-- how many analyses are listed -/
def recentCount : Nat := 10

def welcome : String :=
  "Truthtable API Server\n\nAvailable endpoints:\nPOST /validate-logic\nPOST /analyses\nGET  /analyses\nGET  /stats\n" ++
    "GET  /health"

namespace Argument

/-- the argument that a JSON value holds -/
def ofJson? (v : Json) : Option (Argument String) :=
  match v.record? ["premises", "conclusion"] with
  | some [premises, conclusion] => do
    let premises ← Json.required (Json.list? Json.str?) premises
    let conclusion ← Json.optional Json.str? conclusion
    return ⟨premises, conclusion⟩
  | _ => none

/-- the argument that a JSON text holds -/
def read? (s : String) : Option (Argument String) := (Json.read? s).bind ofJson?

end Argument

def Stats.report (s : Stats) : Json := .obj [("total", .nat s.total), ("invalid", .nat s.invalid)]

namespace Request

/-- characters below U+0080 that are escaped in a path stand for themselves, save three that keep their escapes -/
def unescape : List Char → List Char
  | '%' :: a :: b :: rest =>
    match Json.hexValue? a, Json.hexValue? b with
    | some h, some l =>
      let c := Char.ofNat (h * 16 + l)
      if h < 8 ∧ c ≠ '%' ∧ c ≠ '/' ∧ c ≠ '+' then c :: unescape rest else '%' :: a :: b :: unescape rest
    | _, _ => '%' :: unescape (a :: b :: rest)
  | c :: rest => c :: unescape rest
  | [] => []

/-- a path ends where its query or its fragment starts -/
def endsPath (c : Char) : Bool := c = '?' || c = '#'

/-- a character of the name of a scheme -/
def isSchemeChar (c : Char) : Bool := c.isAlphanum || c = '+' || c = '-' || c = '.'

/-- what an address has after its scheme and `://` -/
def afterScheme? (target : List Char) : Option (List Char) :=
  match target.dropWhile isSchemeChar with
  | ':' :: '/' :: '/' :: rest => some rest
  | _ => none

/-- the path as the target writes it. A target is a path, or an address: there the path comes after the authority, and
is `/` if nothing does. All other targets, such as `*` and an authority alone, have none. -/
def writtenPath : List Char → List Char
  | '/' :: rest => '/' :: rest.takeWhile fun c => !endsPath c
  | target =>
    match afterScheme? target with
    | none => []
    | some rest =>
      match (rest.dropWhile fun c => c ≠ '/' && !endsPath c).takeWhile fun c => !endsPath c with
      | [] => ['/']
      | path => path

/-- the path without query, escapes resolved -/
def path (r : Request) : String := String.ofList (unescape (writtenPath r.target.toList))

/-- the argument in the body, or why there is none -/
def argument (r : Request) : Except String (Argument String) :=
  match r.body with
  | none => .error "Content type error"
  | some text =>
    match Argument.read? text with
    | none => .error "Json deserialize error"
    | some arg =>
      match arg.refusal? with
      | some refusal => .error refusal.message
      | none => .ok arg

end Request

namespace Service

/-- a service whose archive is opened at a place -/
def ofPlace (p : Place) : Service := ⟨.ofPlace p, .epoch, .standard⟩

def setClock (s : Service) (now : Instant) : Service := { s with clock := now }

/-- puts something else in the place of the file -/
def block (s : Service) : Service := { s with store := { s.store with place := .blocked } }

/-- tests an argument -/
def validate (s : Service) (r : Request) : Response :=
  match r.argument with
  | .error message => .refused message
  | .ok arg => .json (arg.check s.limits).report

/-- tests an argument and stores the analysis -/
def analyse (s : Service) (r : Request) : Response × Service :=
  match r.argument with
  | .error message => (.refused message, s)
  | .ok arg =>
    let outcome := arg.check s.limits
    let (stored, store) := s.store.add s.clock arg outcome.summary
    let next := { s with store := store }
    match stored with
    | .ok x =>
      (.json (.obj [("id", .nat x.id.toNat), ("createdAt", .str x.createdAt.render), ("logic", outcome.report)]), next)
    | .error _ => (.failed, next)

/-- answers a request -/
def handle (s : Service) (r : Request) : Response × Service :=
  let path := r.path
  if r.method = "GET" then
    if path = "/" then (.page welcome, s)
    else if path = "/health" then
      (.json (.obj [("status", .str "ok"), ("timestamp", .str s.clock.renderOffset)]), s)
    else if path = "/analyses" then (.json (.arr ((s.store.archive.recent recentCount).map Analysis.report)), s)
    else if path = "/stats" then (.json s.store.archive.stats.report, s)
    else (.notFound, s)
  else if r.method = "POST" then
    if path = "/validate-logic" then (s.validate r, s)
    else if path = "/analyses" then s.analyse r
    else (.notFound, s)
  else (.notFound, s)

end Service

end Sequitur
