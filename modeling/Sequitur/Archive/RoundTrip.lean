/-
Saved analyses and archives read back.

Main statements: `Analysis.read?_render` and `Archive.read?_render`. Every analysis is read back as it was written,
whatever its texts, its instant and its seal; an archive comes back with its next id and its analyses in order.
-/
import Sequitur.Archive
import Sequitur.Instant.RoundTrip
import Sequitur.Json.RoundTrip

namespace Sequitur

namespace Json

theorem plainItems_map {f : α → Json} (h : ∀ a, Plain (f a)) (l : List α) : PlainItems (l.map f) := by
  induction l with
  | nil => trivial
  | cons a l ih => exact ⟨h a, ih⟩

theorem plain_strs (l : List String) : Plain (strs l) := plainItems_map (f := str) (fun _ => trivial) l

theorem plain_ofOption {f : α → Json} (h : ∀ a, Plain (f a)) (o : Option α) : Plain (ofOption f o) := by
  cases o with
  | none => trivial
  | some a => exact h a

theorem list?_map {f : Json → Option α} {g : α → Json} (h : ∀ a, f (g a) = some a) (l : List α) :
    list? f (arr (l.map g)) = some l := by
  simp only [list?]
  induction l with
  | nil => rfl
  | cons a l ih => simp [h, ih]

theorem list?_strs (l : List String) : list? str? (strs l) = some l :=
  list?_map (f := str?) (g := str) (fun _ => rfl) l

theorem plain_toNat (n : UInt64) : Plain (nat n.toNat) := by
  have := n.toNat_lt
  simp only [Plain]
  exact (Nat.length_toDigits_le_iff (by decide) (by decide)).2 (by simp only [maxDigits]; omega)

theorem nat64?_toNat (n : UInt64) : nat64? (nat n.toNat) = some n := by
  simp [nat64?, UInt64.size, n.toNat_lt]

theorem optional_str (o : Option String) : optional str? (some (ofOption str o)) = some o := by
  cases o <;> rfl

end Json

theorem Status.ofCode?_code (s : Status) : Status.ofCode? s.code = some s := by
  cases s <;> decide

theorem Status.code_inj {s t : Status} (h : s.code = t.code) : s = t := by
  have hsome : some s = some t := calc
    some s = Status.ofCode? s.code := s.ofCode?_code.symm
    _ = Status.ofCode? t.code := by rw [h]
    _ = some t := t.ofCode?_code
  exact Option.some.inj hsome

namespace Analysis

theorem plain_report (a : Analysis) : a.report.Plain := by
  simp only [report, Json.Plain, Json.PlainFields, true_and, and_true]
  exact ⟨Json.plain_toNat _, Json.plain_strs _, Json.plain_ofOption (f := .str) (fun _ => trivial) _, Json.plain_strs _,
    Json.plain_toNat _⟩

theorem record?_report (a : Analysis) : a.report.record? fieldNames =
    some [some (.nat a.id.toNat), some (.str a.createdAt.render), some (.strs a.argument.premises),
      some (.ofOption .str a.argument.conclusion), some (.bool a.summary.isValid), some (.str a.summary.status.code),
      some (.strs a.summary.atoms), some (.nat a.summary.counterexampleCount.toNat), some (.str a.summary.explanation),
      some (.str a.sealText)] := by
  simp [report, Json.record?, fieldNames, List.lookup_cons]

theorem instant?_render (t : Instant) : instant? (.str t.render) = some t := by
  simp [instant?, Json.str?, t.read?_render]

theorem status?_code (s : Status) : status? (.str s.code) = some s := s.ofCode?_code

theorem ofJson?_report (a : Analysis) : ofJson? a.report = some a := by
  rw [ofJson?, record?_report]
  simp [Json.required, Json.nat64?_toNat, instant?_render, Json.list?_strs, Json.optional_str, Json.bool?, status?_code,
    Json.str?]

/-- a written analysis reads back -/
theorem read?_render (a : Analysis) : read? a.report.render = some a := by
  rw [read?, Json.read?_render a.plain_report, Option.bind_some, ofJson?_report]

end Analysis

namespace Archive

theorem plain_report (a : Archive) : a.report.Plain := by
  simp only [report, Json.Plain, Json.PlainFields, and_true]
  exact ⟨Json.plain_toNat _, Json.plainItems_map Analysis.plain_report _⟩

theorem ofJson?_report (a : Archive) : ofJson? a.report = some a := by
  have hr : a.report.record? ["nextId", "analyses"] =
      some [some (.nat a.nextId.toNat), some (.arr (a.analyses.map Analysis.report))] := by
    simp [report, Json.record?, List.lookup_cons]
  rw [ofJson?, hr]
  simp [Json.required, Json.nat64?_toNat, Json.list?_map Analysis.ofJson?_report]

/-- a saved archive reads back -/
theorem read?_render (a : Archive) : read? a.render = some a := by
  rw [read?, render, Json.read?_render a.plain_report, Option.bind_some, ofJson?_report]

end Archive

end Sequitur
