/-
The verdict is right.

An argument whose distinct names fit under the ceiling is always tested to the end, and the verdict is then the classical
one: `isValid` says that the conclusion is true under every interpretation that makes all premises true, whatever the
interpretation says of names outside the argument.

- `Argument.check_eq_test`: texts that all spell formulas are tested as those formulas;
- `Table.isEmpty_counterexamples_iff`: a table lists no counterexample exactly if the premises entail the conclusion;
- `Argument.decides_entailment`: the verdict is sound and complete, for formulas and for texts.
-/
import Mathlib
import Sequitur.Proofs.Checked

namespace Sequitur

/-- an outcome settles whether the premises entail the conclusion -/
def Outcome.Decides (o : Outcome) (premises : List Formula) (conclusion : Formula) : Prop :=
  o.status = .checked ∧ (o.isValid = true ↔ Entails premises conclusion)

/-! ## Counterexamples -/

theorem Row.isCounterexample_under {premises : List Formula} {conclusion : Formula} {atoms : List String}
    {v : String → Bool} : (Row.under premises conclusion atoms v).isCounterexample = true ↔
      (∀ p ∈ premises, p.truth v = true) ∧ conclusion.truth v = false := by
  simp [Row.isCounterexample, Row.allPremises, Row.under]

/-- the counterexamples in a complete table are the rows of the interpretations that refute the argument -/
theorem Table.mem_counterexamples_enumerate {premises : List Formula} {conclusion : Formula} {atoms : List String}
    (hn : atoms.Nodup) (hc : Covers atoms premises conclusion) {r : Row} :
    r ∈ (Table.enumerate premises conclusion atoms).counterexamples ↔
      ∃ v, r = Row.under premises conclusion atoms v ∧ (∀ p ∈ premises, p.truth v = true) ∧ conclusion.truth v = false := by
  rw [Table.counterexamples, List.mem_filter, Table.mem_rows_enumerate hn hc]
  constructor
  · rintro ⟨⟨v, rfl⟩, hrefutes⟩
    exact ⟨v, rfl, Row.isCounterexample_under.1 hrefutes⟩
  · rintro ⟨v, rfl, hv⟩
    exact ⟨⟨v, rfl⟩, Row.isCounterexample_under.2 hv⟩

/-- a complete table lists a counterexample unless the premises entail the conclusion -/
theorem Table.isEmpty_counterexamples_iff {premises : List Formula} {conclusion : Formula} {atoms : List String}
    (hn : atoms.Nodup) (hc : Covers atoms premises conclusion) :
    (Table.enumerate premises conclusion atoms).counterexamples.isEmpty = true ↔ Entails premises conclusion := by
  rw [List.isEmpty_iff, Table.counterexamples, List.filter_eq_nil_iff]
  constructor
  · intro h v hv
    have hrow : ¬ (Row.under premises conclusion atoms v).isCounterexample = true :=
      h _ ((Table.mem_rows_enumerate hn hc).2 ⟨v, rfl⟩)
    rw [Row.isCounterexample_under] at hrow
    by_contra hf
    exact hrow ⟨hv, Bool.not_eq_true _ ▸ hf⟩
  · intro h r hr
    obtain ⟨v, rfl⟩ := (Table.mem_rows_enumerate hn hc).1 hr
    rw [Row.isCounterexample_under]
    rintro ⟨hv, hf⟩
    rw [h v hv] at hf
    cases hf

namespace Argument

/-! ## Texts -/

/-- the premises are read one by one -/
theorem parsePremises_eq_ok {index : Nat} {texts : List String} {fs : List Formula}
    (h : List.Forall₂ (fun s f => Formula.parse s = .ok f) texts fs) : parsePremises index texts = .ok fs := by
  induction h generalizing index with
  | nil => rfl
  | cons hp _ ih =>
    rw [parsePremises, hp]
    simp only [ih]
    rfl

theorem check_eq_test {limits : Limits} {texts : List String} {text : String} {premises : List Formula}
    {conclusion : Formula} (hp : List.Forall₂ (fun s f => Formula.parse s = .ok f) texts premises)
    (hc : Formula.parse text = .ok conclusion) :
    check limits ⟨texts, some text⟩ = test limits ⟨premises, some conclusion⟩ := by
  cases hp with
  | nil => rfl
  | cons h hs => simp only [check, parsePremises_eq_ok (List.Forall₂.cons h hs), parseConclusion, hc]

/-- **The verdict is sound and complete.** Over at most `min maxAtoms 24` distinct names a test always ends in a table,
and the argument is valid exactly if its premises entail its conclusion under every interpretation of all names. Texts
that spell the formulas get the same verdict. -/
theorem decides_entailment (limits : Limits) (premises : List Formula) (conclusion : Formula) (hne : premises ≠ [])
    (hcount : ((premises ++ [conclusion]).flatMap Formula.occurrences).toFinset.card ≤ min limits.maxAtoms 24) :
    (test limits ⟨premises, some conclusion⟩).Decides premises conclusion ∧
      ∀ (texts : List String) (text : String), List.Forall₂ (fun s f => Formula.parse s = .ok f) texts premises →
        Formula.parse text = .ok conclusion →
          (check limits ⟨texts, some text⟩).Decides premises conclusion := by
  have hle : (atoms (premises ++ [conclusion])).length ≤ limits.atomLimit := by
    rw [length_atoms]
    exact hcount
  have decides : (test limits ⟨premises, some conclusion⟩).Decides premises conclusion := by
    rw [test_eq_checked hne hle]
    exact ⟨rfl, Table.isEmpty_counterexamples_iff (nodup_atoms _) (covers_atoms premises conclusion)⟩
  refine ⟨decides, ?_⟩
  intro texts text hp hc
  rw [check_eq_test hp hc]
  exact decides

/-- under a ceiling that the two names of modus ponens just meet -/
theorem decides_entailment_modusPonens :
    modusPonens ≠ [] ∧ ((modusPonens ++ [Formula.var "Q"]).flatMap Formula.occurrences).toFinset.card ≤ min 2 24 ∧
      List.Forall₂ (fun s f => Formula.parse s = .ok f) ["P", "P -> Q"] modusPonens ∧
      Formula.parse "Q" = .ok (.var "Q") ∧
      (test ⟨2⟩ ⟨modusPonens, some (.var "Q")⟩).Decides modusPonens (.var "Q") ∧
      (check ⟨2⟩ ⟨["P", "P -> Q"], some "Q"⟩).Decides modusPonens (.var "Q") := by
  have hp : List.Forall₂ (fun s f => Formula.parse s = .ok f) ["P", "P -> Q"] modusPonens :=
    .cons (by decide) (.cons (by decide) .nil)
  have hc : Formula.parse "Q" = .ok (.var "Q") := by decide
  obtain ⟨htest, hcheck⟩ := decides_entailment ⟨2⟩ modusPonens (.var "Q") (by decide) (by decide)
  exact ⟨by decide, by decide, hp, hc, htest, hcheck _ _ hp hc⟩

end Argument

end Sequitur
