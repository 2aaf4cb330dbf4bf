/-
A store is safe whatever its file holds.

Anybody may have written the file: there may be none, its text may be no archive at all, or an archive whose analyses were
altered, repeated or put in another order, are more than are ever kept, and have ids that do not fit the next id. Opening
trusts only what is rightly sealed, and takes the next id from what is left. That much makes the archive sound, and calls
keep it so (`Store.call_sound`).

Ids are numbers of 64 bits, so "beyond every id in use" needs that the greatest one has another number after it.

- `Archive.sound_trusted`: what is trusted is sound, wherever the archive came from;
- `Store.calls_sound`: a run of calls keeps that, and hands out nothing that is not sealed;
- `Store.safe_of_any_file`: all that is certain of a store that was opened at any place.
-/
import Sequitur.Proofs.Calls

namespace Sequitur

variable {now : Instant} {arg : Argument String} {summary : Summary}

/-! ## Opening -/

namespace Archive

variable {a : Archive}

/-- what is trusted of an archive is sound -/
theorem sound_trusted (h : ∀ x ∈ a.trusted.analyses, x.id.toNat + 1 < UInt64.size) : a.trusted.Sound where
  isSealed _ hx := (List.mem_filter.1 hx).2
  id_lt := id_lt_freshId h

/-- of an archive that is read only what can be trusted is taken -/
theorem ofPlace_of_read {p : Place} (h : p.content.bind read? = some a) : ofPlace p = a.trusted := by
  rw [ofPlace, h]
  rfl

/-- where none can be read there is nothing -/
theorem ofPlace_of_unreadable {p : Place} (h : p.content.bind read? = none) : ofPlace p = empty := by
  rw [ofPlace, h]
  exact sound_empty.trusted_eq

end Archive

/-! ## Calls -/

/-- the analyses that an answer hands out -/
def Answer.analyses : Answer → List Analysis
  | added (.ok x) => [x]
  | added (.error _) => []
  | listed xs => xs
  | counted _ => []

namespace Store

variable {s : Store}

/-- a call keeps the archive sound and uses up an id if it takes something in; what it hands out is sealed -/
theorem call_sound {c : Call} (h : s.archive.Sound) (hid : s.archive.nextId.toNat + c.accepted.toNat < UInt64.size) :
    (s.call c).2.archive.Sound ∧
      (s.call c).2.archive.nextId.toNat = s.archive.nextId.toNat + c.accepted.toNat ∧
      ∀ x ∈ (s.call c).1.analyses, x.isSealed = true := by
  cases c with
  | add now arg summary writable =>
    cases hr : arg.refusal? with
    | some r =>
      obtain ⟨hanswer, harchive, -⟩ := call_add_of_refusal s now summary hr writable
      rw [hanswer, harchive]
      exact ⟨h, by simp [Call.accepted, hr], by simp [Answer.analyses]⟩
    | none =>
      obtain ⟨hanswer, harchive⟩ := call_add_of_accepted s now summary hr writable
      have hfull : s.archive.nextId.toNat + 1 < UInt64.size := by simpa [Call.accepted, hr] using hid
      rw [hanswer, harchive]
      refine ⟨h.push_entry hfull, ?_, ?_⟩
      · rw [Archive.toNat_nextId_push hfull]
        simp [Call.accepted, hr]
      · intro x hx
        cases writable with
        | true =>
          rw [List.mem_singleton.1 hx]
          exact Analysis.isSealed_sealed _
        | false => cases hx
  | recent n =>
    exact ⟨h, rfl, fun x hx => h.isSealed x (List.mem_reverse.1 (List.mem_of_mem_take hx))⟩
  | stats => exact ⟨h, rfl, by simp [call, Answer.analyses]⟩

/-- the calls of a run, one after the other -/
theorem calls_sound {calls : List Call} (h : s.archive.Sound)
    (hid : s.archive.nextId.toNat + calls.countP Call.accepted < UInt64.size) :
    (Call.after Store.call s calls).archive.Sound ∧
      ∀ answer ∈ Call.answers Store.call s calls, ∀ x ∈ answer.analyses, x.isSealed = true := by
  induction calls generalizing s with
  | nil => exact ⟨h, by simp [Call.answers]⟩
  | cons c calls ih =>
    rw [countP_cons_toNat] at hid
    obtain ⟨hsound, hnext, hsealed⟩ := call_sound (c := c) h (by omega)
    obtain ⟨hlast, hrest⟩ := ih hsound (by omega)
    refine ⟨hlast, fun answer hanswer => ?_⟩
    rcases List.mem_cons.1 hanswer with rfl | hanswer
    · exact hsealed
    · exact hrest answer hanswer

/-- **A store is safe whatever its file holds.** Let a store be opened at any place, let the ids that it finds have another
number after them, and let any calls be made while ids remain. What was opened are the analyses of the file that are
rightly sealed, in order, or nothing if no archive can be read. All that the store holds then and all that it has handed
out is rightly sealed. An argument that is not refused gets an id beyond every id in the store, and stands behind what is
left of the others when only 1024 are kept, even if it cannot be saved. -/
theorem safe_of_any_file (p : Place) (calls : List Call)
    (hids : ∀ x ∈ (Archive.ofPlace p).analyses, x.id.toNat + 1 < UInt64.size)
    (hid : (Archive.ofPlace p).nextId.toNat + calls.countP Call.accepted < UInt64.size) :
    (∀ a, p.content.bind Archive.read? = some a →
        (ofPlace p).archive.analyses = a.analyses.filter Analysis.isSealed) ∧
      (p.content.bind Archive.read? = none → (ofPlace p).archive = ⟨0, []⟩) ∧
      let s := Call.after Store.call (ofPlace p) calls
      (∀ x ∈ s.archive.analyses, x.isSealed = true) ∧
        (∀ answer ∈ Call.answers Store.call (ofPlace p) calls, ∀ x ∈ answer.analyses, x.isSealed = true) ∧
        ∀ now arg summary writable, arg.refusal? = none →
          let x := s.archive.entry now arg summary
          (∀ y ∈ s.archive.analyses, y.id < x.id) ∧
            (s.call (.add now arg summary writable)).1 = .added (if writable then .ok x else .error .unwritable) ∧
            (s.call (.add now arg summary writable)).2.archive.analyses =
              (s.archive.analyses ++ [x]).drop (s.archive.analyses.length + 1 - 1024) := by
  have hopened : (ofPlace p).archive.Sound := Archive.sound_trusted hids
  obtain ⟨hsound, hsealed⟩ := calls_sound hopened hid
  refine ⟨fun a ha => ?_, Archive.ofPlace_of_unreadable, hsound.isSealed, hsealed, ?_⟩
  · show (Archive.ofPlace p).analyses = a.analyses.filter Analysis.isSealed
    rw [Archive.ofPlace_of_read ha, Archive.trusted]
  · intro now arg summary writable hr x
    obtain ⟨hanswer, harchive⟩ :=
      call_add_of_accepted (Call.after Store.call (ofPlace p) calls) now summary hr writable
    refine ⟨hsound.id_lt, hanswer, ?_⟩
    rw [harchive, Archive.analyses_push, List.length_append, List.length_singleton]
    rfl

/-- an analysis as it was stored -/
def storedAnalysis : Analysis :=
  Analysis.sealed ⟨5, lateInstant, ⟨["P | Q"], some "P"⟩, ⟨false, .checked, ["P", "Q"], 1, "refuted"⟩, ""⟩

/-- the verdict turned round, and another id, under the old seal -/
def turnedAnalysis : Analysis := { storedAnalysis with id := 9, summary := ⟨true, .checked, ["P", "Q"], 0, "proved"⟩ }

/-- the old seal does not fit, since the hashes of the two lines differ -/
theorem isSealed_turnedAnalysis : turnedAnalysis.isSealed = false := by
  have hhash : Keccak.sha3 (sealSalt ++ turnedAnalysis.sealInfo).toUTF8.toList ≠
      Keccak.sha3 (sealSalt ++ storedAnalysis.sealInfo).toUTF8.toList := by decide +kernel
  exact Bool.eq_false_iff.2 fun hsealed => hhash (verifies_sealOf_iff.1 hsealed)

/-- an archive that somebody edited: a verdict turned round under its old seal, an analysis that stands there twice, ids out
of order, and a next id that is below them -/
def editedArchive : Archive :=
  ⟨3, [turnedAnalysis, storedAnalysis, storedAnalysis, Analysis.sealed { storedAnalysis with id := 2 }]⟩

/-- what is left of it: all but the turned verdict, and a next id above what is left -/
def keptArchive : Archive :=
  ⟨6, [storedAnalysis, storedAnalysis, Analysis.sealed { storedAnalysis with id := 2 }]⟩

/-- reading, and two arguments that are taken in, the first of them while the place cannot be written -/
def laterCalls : List Call :=
  [.recent 10, .add .epoch ⟨["P"], some "P"⟩ ⟨true, .checked, ["P"], 0, ""⟩ false, .stats,
    .add .epoch ⟨["P"], some "Q"⟩ ⟨false, .checked, ["P", "Q"], 1, ""⟩ true]

theorem read?_editedArchive : (Place.file editedArchive.render).content.bind Archive.read? = some editedArchive := by
  rw [Place.content_file, Option.bind_some, Archive.read?_render]

theorem filter_editedArchive : editedArchive.analyses.filter Analysis.isSealed = keptArchive.analyses := by
  have hturned : ¬ turnedAnalysis.isSealed = true := by simp [isSealed_turnedAnalysis]
  have hkept : ∀ x ∈ keptArchive.analyses, x.isSealed = true := by
    simp only [keptArchive, List.mem_cons, List.not_mem_nil, or_false]
    rintro x (rfl | rfl | rfl) <;> exact Analysis.isSealed_sealed _
  rw [editedArchive, List.filter_cons_of_neg hturned]
  exact List.filter_eq_self.2 hkept

/-- opening the edited file leaves the turned verdict out and keeps the other three, and calls go on from there -/
theorem safe_of_any_file_edited :
    turnedAnalysis ∈ editedArchive.analyses ∧ turnedAnalysis.isSealed = false ∧
      (∀ x ∈ (Archive.ofPlace (.file editedArchive.render)).analyses, x.id.toNat + 1 < UInt64.size) ∧
      (Archive.ofPlace (.file editedArchive.render)).nextId.toNat + laterCalls.countP Call.accepted < UInt64.size ∧
      (ofPlace (.file editedArchive.render)).archive.analyses = editedArchive.analyses.filter Analysis.isSealed ∧
      (ofPlace (.file editedArchive.render)).archive = keptArchive ∧
      let s := Call.after Store.call (ofPlace (.file editedArchive.render)) laterCalls
      (∀ x ∈ s.archive.analyses, x.isSealed = true) ∧
        ∀ y ∈ s.archive.analyses, y.id < (s.archive.entry .epoch ⟨["R"], none⟩ ⟨false, .noConclusion, [], 0, ""⟩).id := by
  have hread := read?_editedArchive
  have hopen : Archive.ofPlace (.file editedArchive.render) = keptArchive := by
    rw [Archive.ofPlace_of_read hread, Archive.trusted, filter_editedArchive]
    rfl
  have hids : ∀ x ∈ (Archive.ofPlace (.file editedArchive.render)).analyses, x.id.toNat + 1 < UInt64.size := by
    rw [hopen]
    simp only [keptArchive, List.mem_cons, List.not_mem_nil, or_false]
    rintro x (rfl | rfl | rfl) <;> decide
  have hid : (Archive.ofPlace (.file editedArchive.render)).nextId.toNat + laterCalls.countP Call.accepted <
      UInt64.size := by
    rw [hopen]
    decide
  obtain ⟨hopened, -, hsealed, -, hadd⟩ := safe_of_any_file (.file editedArchive.render) laterCalls hids hid
  exact ⟨List.mem_cons_self, isSealed_turnedAnalysis, hids, hid, hopened _ hread, hopen, hsealed,
    (hadd _ _ _ true (by decide)).1⟩

end Store

end Sequitur
