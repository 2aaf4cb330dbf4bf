/-
Evaluation meets classical truth.

`truth` asks for a value of every name, `eval` only for the names it comes across. Both look at an interpretation at the
variables of the formula and nowhere else, so two interpretations that agree there cannot be told apart.

- `Formula.truth_congr`: truth is settled by the values of the variables that occur;
- `Formula.eval_eq_truth`: where all of those are bound, evaluation gives the classical truth value.

`Entails` is the notion of consequence that the checker is measured against. It ranges over total interpretations of all
names, not over the finitely many assignments that a table can list.
-/
import Sequitur.Column

namespace Sequitur

namespace Formula

variable {v w : String → Bool} {I : Interpretation} {f : Formula}

/-- interpretations that agree on the variables of a formula give it the same truth value -/
theorem truth_congr (h : ∀ a ∈ f.occurrences, v a = w a) : f.truth v = f.truth w := by
  induction f with
  | var a => exact h a (List.mem_singleton.2 rfl)
  | not f ih => rw [truth_not, truth_not, ih h]
  | bin op l r ihl ihr =>
    have hl : l.truth v = l.truth w := ihl fun a ha => h a (List.mem_append_left _ ha)
    have hr : r.truth v = r.truth w := ihr fun a ha => h a (List.mem_append_right _ ha)
    rw [truth_bin, truth_bin, hl, hr]

/-- once every variable is bound, evaluation succeeds with the classical truth value -/
theorem eval_eq_truth (h : ∀ a ∈ f.occurrences, I a = some (v a)) : f.eval I = .ok (f.truth v) := by
  induction f with
  | var a =>
    have ha : I a = some (v a) := h a (List.mem_singleton.2 rfl)
    simp only [eval, ha, truth_var]
  | not f ih =>
    rw [eval, ih h]
    rfl
  | bin op l r ihl ihr =>
    rw [eval, ihl fun a ha => h a (List.mem_append_left _ ha), ihr fun a ha => h a (List.mem_append_right _ ha)]
    rfl

theorem holds_eq_truth (h : ∀ a ∈ f.occurrences, I a = some (v a)) : f.holds I = f.truth v := by
  rw [holds, eval_eq_truth h]

end Formula

/-- the conclusion is true wherever all premises are -/
def Entails (premises : List Formula) (conclusion : Formula) : Prop :=
  ∀ v : String → Bool, (∀ p ∈ premises, p.truth v = true) → conclusion.truth v = true

/-- the premises of modus ponens -/
def modusPonens : List Formula := [.var "P", .bin .impl (.var "P") (.var "Q")]

end Sequitur
