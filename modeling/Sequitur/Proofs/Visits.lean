/-
Requests that leave nothing behind.

A service is visited by one request after the other. What a request meets besides the service is part of its visit: the
instant on the clock, and whether the file can be written then. Only a request that adds an argument leaves anything behind,
and to add one it has to ask for that, with an argument that is decoded and taken in.

So visits of other requests can be left out. The run with them and the run without them agree on the archive and on the text
of the file wherever both have come to the same visit, and then they answer it alike.

- `Service.handle_of_not_adds`: a request that adds nothing leaves the service as it is;
- `Service.Agrees.serve_eq`: services that agree answer a visit alike and are left the same;
- `Service.answers_kept`: leaving out visits that add nothing changes no answer to the others.
-/
import Sequitur.Proofs.Failures

namespace Sequitur

/-- the request asks to add an argument, which is decoded and taken in -/
def Request.Adds (r : Request) : Prop := r.method = "POST" ∧ r.path = "/analyses" ∧ ∃ arg, r.argument = .ok arg

/-- a request, and what it meets besides the service -/
structure Visit where
  request : Request
  /-- the instant on the clock -/
  now : Instant
  /-- whether the file can be written -/
  writable : Bool

/-- a list without the items that are marked `false`; what has no mark is kept -/
def kept {α : Type} : List Bool → List α → List α
  | [], l => l
  | _ :: _, [] => []
  | true :: marks, a :: l => a :: kept marks l
  | false :: marks, _ :: l => kept marks l

namespace Service

variable {s t u : Service} {r : Request} {v : Visit}

/-- the service as the request of a visit meets it -/
def meeting (s : Service) (v : Visit) : Service :=
  ⟨⟨s.store.archive, ⟨s.store.place.text, v.writable⟩⟩, v.now, s.limits⟩

def serve (s : Service) (v : Visit) : Response × Service := (s.meeting v).handle v.request

/-- what the visits of a run are answered, one after the other -/
def answers (s : Service) : List Visit → List Response
  | [] => []
  | v :: visits => (s.serve v).1 :: (s.serve v).2.answers visits

/-- the service that a run ends in -/
def after (s : Service) (visits : List Visit) : Service := visits.foldl (fun s v => (s.serve v).2) s

theorem after_cons (s : Service) (v : Visit) (visits : List Visit) :
    s.after (v :: visits) = (s.serve v).2.after visits := rfl

/-! ## One visit -/

/-- a request that adds nothing leaves the service as it is -/
theorem handle_of_not_adds (h : ¬ r.Adds) : (s.handle r).2 = s := by
  by_cases hadding : r.method = "POST" ∧ r.path = "/analyses"
  · rw [handle_adding hadding.1 hadding.2]
    rcases s.analyse_cases r with ⟨message, heq⟩ | ⟨arg, harg, -⟩
    · rw [heq]
    · exact absurd ⟨hadding.1, hadding.2, arg, harg⟩ h
  · exact handle_of_not_adding hadding

/-- what two runs have in common between visits: all but what the next visit brings with it -/
structure Agrees (s t : Service) : Prop where
  limits_eq : s.limits = t.limits
  archive_eq : s.store.archive = t.store.archive
  content_eq : s.store.place.content = t.store.place.content

theorem Agrees.refl (s : Service) : s.Agrees s := ⟨rfl, rfl, rfl⟩

theorem Agrees.trans (h : s.Agrees t) (h' : t.Agrees u) : s.Agrees u :=
  ⟨h.limits_eq.trans h'.limits_eq, h.archive_eq.trans h'.archive_eq, h.content_eq.trans h'.content_eq⟩

theorem agrees_meeting (s : Service) (v : Visit) : s.Agrees (s.meeting v) := ⟨rfl, rfl, rfl⟩

/-- a visit finds services that agree in the same state -/
theorem Agrees.meeting_eq (h : s.Agrees t) (v : Visit) : s.meeting v = t.meeting v := by
  have hplace : (⟨s.store.place.text, v.writable⟩ : Place) = ⟨t.store.place.text, v.writable⟩ :=
    Place.ext h.content_eq rfl
  rw [meeting, meeting, h.limits_eq, h.archive_eq, hplace]

/-- so it is answered alike, and leaves the same behind -/
theorem Agrees.serve_eq (h : s.Agrees t) (v : Visit) : s.serve v = t.serve v := by
  rw [serve, serve, h.meeting_eq]

/-- a visit that adds nothing leaves a service that agrees with the one it came to -/
theorem agrees_serve (h : ¬ v.request.Adds) : s.Agrees (s.serve v).2 := by
  rw [serve, handle_of_not_adds h]
  exact s.agrees_meeting v

/-! ## Runs -/

/-- services that agree, one of them spared some visits that add nothing -/
theorem Agrees.run_kept (h : s.Agrees t) (marks : List Bool) (visits : List Visit)
    (hm : ∀ p ∈ visits.zip marks, p.2 = false → ¬ p.1.request.Adds) :
    s.answers (kept marks visits) = kept marks (t.answers visits) ∧
      (s.after (kept marks visits)).Agrees (t.after visits) := by
  induction visits generalizing s t marks with
  | nil => cases marks <;> exact ⟨rfl, h⟩
  | cons v visits ih =>
    -- from a visit that both are made on, the two runs go on from one state
    have hsame := h.serve_eq v
    rcases marks with _ | ⟨mark, marks⟩
    · rw [kept, kept, answers, answers, after_cons, after_cons, hsame]
      exact ⟨rfl, .refl _⟩
    · have hrest : ∀ p ∈ visits.zip marks, p.2 = false → ¬ p.1.request.Adds :=
        fun p hp => hm p (List.mem_cons_of_mem _ hp)
      cases mark with
      | true =>
        obtain ⟨hanswers, hafter⟩ := ih (.refl (t.serve v).2) marks hrest
        rw [answers, kept, kept, answers, after_cons, after_cons, hsame, hanswers]
        exact ⟨rfl, hafter⟩
      | false =>
        have hleft : s.Agrees (t.serve v).2 := h.trans (agrees_serve (hm (v, false) List.mem_cons_self rfl))
        rw [answers, kept, kept, after_cons]
        exact ih hleft marks hrest

/-- **Requests that add nothing are invisible.** Let any visits that add nothing be left out of a run, each of the others at
the same instant as before and with the file as writable as before. The others are then answered as before, and in the end
the archive, its next id and the text of the file are what they would have been. By itself, a request that adds nothing
leaves the service just as it met it. -/
theorem answers_kept (s : Service) (marks : List Bool) (visits : List Visit)
    (hm : ∀ p ∈ visits.zip marks, p.2 = false → ¬ p.1.request.Adds) :
    s.answers (kept marks visits) = kept marks (s.answers visits) ∧
      (s.after (kept marks visits)).Agrees (s.after visits) ∧
      ∀ (t : Service) (r : Request), ¬ r.Adds → (t.handle r).2 = t := by
  obtain ⟨hanswers, hafter⟩ := (Agrees.refl s).run_kept marks visits hm
  exact ⟨hanswers, hafter, fun _ _ => handle_of_not_adds⟩

/-- an argument is added, and again while the file is blocked, and then the totals are asked for; in between, requests that
read, that have no body, that have too many premises, and whose method there is not -/
def mixedVisits : List Visit :=
  [⟨.totals, .epoch, true⟩, ⟨.adding nonSequitur, Store.lateInstant, true⟩,
    ⟨⟨"POST", "/validate-logic", none⟩, .epoch, true⟩, ⟨.adding ⟨List.replicate 65 "P", some "P"⟩, .epoch, true⟩,
    ⟨.adding nonSequitur, .epoch, false⟩, ⟨⟨"PUT", "/analyses", some "[]"⟩, .epoch, true⟩, ⟨.totals, .epoch, false⟩]

/-- leaves out those in between -/
def sparing : List Bool := [false, true, false, false, true, false]

theorem answers_kept_mixedVisits :
    (∀ p ∈ mixedVisits.zip sparing, p.2 = false → ¬ p.1.request.Adds) ∧
      kept sparing mixedVisits = [⟨.adding nonSequitur, Store.lateInstant, true⟩,
        ⟨.adding nonSequitur, .epoch, false⟩, ⟨.totals, .epoch, false⟩] ∧
      (ofPlace .vacant).answers (kept sparing mixedVisits) = kept sparing ((ofPlace .vacant).answers mixedVisits) ∧
      ((ofPlace .vacant).after (kept sparing mixedVisits)).Agrees ((ofPlace .vacant).after mixedVisits) := by
  have hm : ∀ p ∈ mixedVisits.zip sparing, p.2 = false → ¬ p.1.request.Adds := by
    intro p hp hmark hadds
    simp only [mixedVisits, sparing, List.zip_cons_cons, List.zip_nil_right, List.mem_cons, List.not_mem_nil,
      or_false] at hp
    rcases hp with rfl | rfl | rfl | rfl | rfl | rfl
    · exact absurd hadds.1 (by decide)
    · cases hmark
    · exact absurd hadds.2.1 (by decide)
    · obtain ⟨arg, harg⟩ := hadds.2.2
      rw [Request.argument_adding_of_refusal (by decide : _ = some (.tooManyPremises 65))] at harg
      cases harg
    · cases hmark
    · exact absurd hadds.1 (by decide)
  obtain ⟨hanswers, hafter, -⟩ := answers_kept (ofPlace .vacant) sparing mixedVisits hm
  exact ⟨hm, rfl, hanswers, hafter⟩

end Service

end Sequitur
