/-
Tests side by side.

Of an argument only one thing counts under an assignment: whether all premises are true there and the conclusion is not. So
arguments that are put differently can have tables that stand side by side: over the same atoms, row for row the same
assignment, and refuted in the same rows. What is told of them is then the same, but for the columns of the formulas.

- `Outcome.Parallel`: two outcomes whose rows stand in pairs, and so do their counterexamples;
- `Argument.parallel_test`: tests of arguments in which the same names occur, if their rows are related under every
  interpretation;
- `Argument.deduction`: the last premise can as well be put before the conclusion, with an arrow;
- `Argument.premises_unordered`: premises can be given in any order, and again.
-/
import Mathlib
import Sequitur.Proofs.Assignments
import Sequitur.Proofs.Ladder

namespace Sequitur

/-- two outcomes that say the same, over the same atoms, with rows in pairs that are related -/
structure Outcome.Parallel (R : Row → Row → Prop) (o o' : Outcome) : Prop where
  status : o'.status = o.status
  explanation : o'.explanation = o.explanation
  isValid : o'.isValid = o.isValid
  atoms : o'.atoms = o.atoms
  length_rows : o'.rows.length = o.rows.length
  rows : List.Forall₂ R o.rows o'.rows
  counterexamples : List.Forall₂ R o.counterexamples o'.counterexamples

/-- two outcomes show the same counterexamples in the same order, and the same one as their example -/
structure Outcome.ShowAlike (o o' : Outcome) : Prop where
  assignments : (o'.counterexamples.map fun r => r.assignment o'.atoms) = o.counterexamples.map fun r => r.assignment o.atoms
  scenario : o'.example?.map Example.scenario = o.example?.map Example.scenario
  values : o'.example?.map Example.values = o.example?.map Example.values

section

variable {R : Row → Row → Prop} {premises premises' : List Formula} {conclusion conclusion' : Formula}
  {atoms : List String} {t t' : Table} {o o' : Outcome}

/-! ## Tables -/

/-- what is related under every interpretation is related row by row -/
theorem Table.forall₂_rows (hn : atoms.Nodup) (hc : Covers atoms premises conclusion)
    (hc' : Covers atoms premises' conclusion')
    (h : ∀ v, R (Row.under premises conclusion atoms v) (Row.under premises' conclusion' atoms v)) :
    List.Forall₂ R (enumerate premises conclusion atoms).rows (enumerate premises' conclusion' atoms).rows := by
  rw [rows_enumerate, rows_enumerate, List.forall₂_map_left_iff, List.forall₂_map_right_iff, List.forall₂_same]
  intro mask hm
  have hrow := h (interpretationOf atoms mask)
  rwa [← Row.ofMask_maskOf hc, ← Row.ofMask_maskOf hc', maskOf_interpretationOf hn (List.mem_range.1 hm)] at hrow

/-- rows that refute together are counterexamples together -/
theorem Table.forall₂_counterexamples (hrefutes : ∀ r r', R r r' → r'.isCounterexample = r.isCounterexample)
    (h : List.Forall₂ R t.rows t'.rows) : List.Forall₂ R t.counterexamples t'.counterexamples := by
  refine List.rel_filter ?_ h
  intro r r' hr
  change r.isCounterexample = true ↔ r'.isCounterexample = true
  rw [hrefutes r r' hr]

/-! ## Outcomes -/

namespace Outcome

/-- without a row there is nothing to compare -/
theorem parallel_of_no_rows (hrows : o.rows = []) (hcounterexamples : o.counterexamples = []) : o.Parallel R o := by
  constructor
  case rows =>
    rw [hrows]
    exact .nil
  case counterexamples =>
    rw [hcounterexamples]
    exact .nil
  all_goals rfl

theorem parallel_checked (hatoms : t'.atoms = t.atoms)
    (hrefutes : ∀ r r', R r r' → r'.isCounterexample = r.isCounterexample) (h : List.Forall₂ R t.rows t'.rows) :
    (checked t).Parallel R (checked t') := by
  have hcounterexamples := Table.forall₂_counterexamples hrefutes h
  have hempty : t'.counterexamples.isEmpty = t.counterexamples.isEmpty :=
    isValid_checked_congr hcounterexamples.length_eq.symm
  constructor
  case status => rfl
  case explanation => simp only [explanation, hempty]
  case isValid => exact hempty
  case atoms => exact hatoms
  case length_rows => exact h.length_eq.symm
  case rows => exact h
  case counterexamples => exact hcounterexamples

theorem map_eq_of_forall₂ {α : Type} {f g : Row → α} {rows rows' : List Row} (hfg : ∀ r r', R r r' → g r' = f r)
    (h : List.Forall₂ R rows rows') : rows'.map g = rows.map f := by
  induction h with
  | nil => rfl
  | cons hr _ ih => rw [List.map_cons, List.map_cons, hfg _ _ hr, ih]

/-- counterexamples in pairs are shown alike if they have the same values -/
theorem Parallel.showAlike (h : o.Parallel R o') (hvalues : ∀ r r', R r r' → r'.values = r.values) : o.ShowAlike o' := by
  have hassignments : (o'.counterexamples.map fun r => r.assignment o'.atoms) =
      o.counterexamples.map fun r => r.assignment o.atoms := by
    refine map_eq_of_forall₂ (fun r r' hr => ?_) h.counterexamples
    rw [Row.assignment, Row.assignment, h.atoms, hvalues r r' hr]
  have hscenarios : (o'.counterexamples.map fun r => r.scenario o'.atoms) =
      o.counterexamples.map fun r => r.scenario o.atoms := by
    refine map_eq_of_forall₂ (fun r r' hr => ?_) h.counterexamples
    rw [Row.scenario, Row.scenario, h.atoms, hvalues r r' hr]
  constructor
  case assignments => exact hassignments
  case scenario => simpa [example?, Function.comp_def] using congrArg List.head? hscenarios
  case values => simpa [example?, Function.comp_def] using congrArg List.head? hassignments

end Outcome

end

namespace Argument

variable {R : Row → Row → Prop} {limits : Limits} {premises premises' : List Formula} {conclusion conclusion' : Formula}

/-- **Tests of the same names run side by side.** -/
theorem parallel_test (hne : premises ≠ []) (hne' : premises' ≠ [])
    (hatoms : atoms (premises' ++ [conclusion']) = atoms (premises ++ [conclusion]))
    (hrefutes : ∀ r r', R r r' → r'.isCounterexample = r.isCounterexample)
    (hrow : ∀ v, R (Row.under premises conclusion (atoms (premises ++ [conclusion])) v)
      (Row.under premises' conclusion' (atoms (premises ++ [conclusion])) v)) :
    (test limits ⟨premises, some conclusion⟩).Parallel R (test limits ⟨premises', some conclusion'⟩) := by
  have hcov' : Covers (atoms (premises ++ [conclusion])) premises' conclusion' := hatoms ▸ covers_atoms premises' conclusion'
  by_cases hle : (atoms (premises ++ [conclusion])).length ≤ limits.atomLimit
  · rw [test_eq_checked hne hle, test_eq_checked hne' (hatoms ▸ hle), hatoms]
    refine Outcome.parallel_checked rfl hrefutes ?_
    exact Table.forall₂_rows (nodup_atoms _) (covers_atoms premises conclusion) hcov' hrow
  · have hlt := Nat.not_le.1 hle
    rw [test_eq_tooManyAtoms hne hlt, test_eq_tooManyAtoms hne' (hatoms ▸ hlt), hatoms]
    exact Outcome.parallel_of_no_rows rfl rfl

end Argument

/-! ## A premise before the conclusion -/

/-- rows of one assignment, valid both or neither -/
structure Row.AsValid (r r' : Row) : Prop where
  values : r'.values = r.values
  valid : r'.valid = r.valid

theorem Row.AsValid.isCounterexample_eq {r r' : Row} (h : r.AsValid r') : r'.isCounterexample = r.isCounterexample := by
  have hvalid := h.valid
  rwa [valid_eq_not_isCounterexample, valid_eq_not_isCounterexample, Bool.not_inj_iff] at hvalid

/-- an interpretation refutes the arrow where it makes the premise true and the conclusion false -/
theorem Row.asValid_deduction (premises : List Formula) (hypothesis conclusion : Formula) (atoms : List String)
    (v : String → Bool) : (Row.under (premises ++ [hypothesis]) conclusion atoms v).AsValid
      (Row.under premises (.bin .impl hypothesis conclusion) atoms v) := by
  constructor
  case values => rfl
  case valid =>
    simp only [valid, allPremises, under, List.map_append, List.all_append, List.map_cons, List.map_nil, List.all_cons,
      List.all_nil, Formula.truth_bin, Connective.apply, id_eq, Bool.and_true]
    cases (premises.map (Formula.truth v)).all id <;> rfl

theorem atoms_deduction (premises : List Formula) (hypothesis conclusion : Formula) :
    atoms (premises ++ [.bin .impl hypothesis conclusion]) = atoms (premises ++ [hypothesis] ++ [conclusion]) := by
  refine atoms_congr fun a => ?_
  simp [Formula.occurrences, or_and_right, exists_or]

/-- **The deduction theorem.** An argument with one premise more, and the argument with an arrow from that premise to the
conclusion, are tested alike under any limits: with the same atoms, valid in the same rows, and refuted by the same
assignments in the same order. -/
theorem Argument.deduction (limits : Limits) (premises : List Formula) (hypothesis conclusion : Formula)
    (hne : premises ≠ []) :
    (test limits ⟨premises ++ [hypothesis], some conclusion⟩).Parallel Row.AsValid
        (test limits ⟨premises, some (.bin .impl hypothesis conclusion)⟩) ∧
      (test limits ⟨premises ++ [hypothesis], some conclusion⟩).ShowAlike
        (test limits ⟨premises, some (.bin .impl hypothesis conclusion)⟩) := by
  have hparallel : (test limits ⟨premises ++ [hypothesis], some conclusion⟩).Parallel Row.AsValid
      (test limits ⟨premises, some (.bin .impl hypothesis conclusion)⟩) :=
    parallel_test (List.append_ne_nil_of_left_ne_nil hne _) hne (atoms_deduction premises hypothesis conclusion)
      (fun _ _ => Row.AsValid.isCounterexample_eq) (Row.asValid_deduction premises hypothesis conclusion _)
  exact ⟨hparallel, hparallel.showAlike fun _ _ => Row.AsValid.values⟩

/-- `P -> Q` -/
def conditional : Formula := .bin .impl (.var "P") (.var "Q")

/-- from a conditional to its converse, or with `Q` to `P` -/
theorem Argument.deduction_converse : [conditional] ≠ [] ∧
    (test .standard ⟨[conditional] ++ [.var "Q"], some (.var "P")⟩).Parallel Row.AsValid
      (test .standard ⟨[conditional], some (.bin .impl (.var "Q") (.var "P"))⟩) ∧
    (test .standard ⟨[conditional] ++ [.var "Q"], some (.var "P")⟩).ShowAlike
      (test .standard ⟨[conditional], some (.bin .impl (.var "Q") (.var "P"))⟩) ∧
    (test .standard ⟨[conditional], some (.bin .impl (.var "Q") (.var "P"))⟩).example?.map Example.values =
      some [("P", false), ("Q", true)] := by
  have hne : [conditional] ≠ [] := List.cons_ne_nil _ _
  obtain ⟨hparallel, halike⟩ := deduction .standard [conditional] (.var "Q") (.var "P") hne
  exact ⟨hne, hparallel, halike, by decide⟩

/-! ## Premises as a set -/

/-- rows of one assignment that differ in the column of the premises only, where every entry belongs to the premise in its
place: it is what that premise evaluates to under the assignment -/
structure Row.Rearranged (atoms : List String) (premises premises' : List Formula) (r r' : Row) : Prop where
  values : r'.values = r.values
  conclusion : r'.conclusion = r.conclusion
  allPremises : r'.allPremises = r.allPremises
  valid : r'.valid = r.valid
  entries : List.Forall₂ (fun p b => p.eval (r.assignment atoms).value? = .ok b) premises r.premises
  entries' : List.Forall₂ (fun p b => p.eval (r.assignment atoms).value? = .ok b) premises' r'.premises

theorem Row.Rearranged.isCounterexample_eq {atoms : List String} {premises premises' : List Formula} {r r' : Row}
    (h : r.Rearranged atoms premises premises' r') : r'.isCounterexample = r.isCounterexample := by
  rw [isCounterexample, isCounterexample, h.allPremises, h.conclusion]

/-- under an interpretation the premises are all true however they are given -/
theorem Row.rearranged_under {atoms : List String} {premises premises' : List Formula} {conclusion : Formula}
    (hasc : atoms.Pairwise (· < ·)) (hc : Covers atoms premises conclusion) (hset : ∀ f, f ∈ premises' ↔ f ∈ premises)
    (v : String → Bool) : (Row.under premises conclusion atoms v).Rearranged atoms premises premises'
      (Row.under premises' conclusion atoms v) := by
  have hall : (Row.under premises' conclusion atoms v).allPremises = (Row.under premises conclusion atoms v).allPremises := by
    rw [Bool.eq_iff_iff]
    simp [allPremises, under, hset]
  -- premises of either list evaluate to their truth values under the assignment that the row shows
  have heval : ∀ p ∈ premises, p.eval ((Row.under premises conclusion atoms v).assignment atoms).value? = .ok (p.truth v) := by
    intro p hp
    rw [Row.assignment_under hasc]
    exact Formula.eval_under (hc p (List.mem_append_left _ hp))
  constructor
  case values => rfl
  case conclusion => rfl
  case allPremises => exact hall
  case valid => rw [valid, valid, hall]; rfl
  case entries => exact List.forall₂_map_right_iff.2 (List.forall₂_same.2 heval)
  case entries' => exact List.forall₂_map_right_iff.2 (List.forall₂_same.2 fun p hp => heval p ((hset p).1 hp))

/-- **Premises are a set.** Two lists of the same premises, in any order and with any repetitions, are tested alike under any
limits: with the same atoms, and row for row with the same values, the same conclusion and the same verdict. Only the columns
of the premises are put in another order, each entry with its premise; the counterexamples are the same assignments. -/
theorem Argument.premises_unordered (limits : Limits) (premises premises' : List Formula) (conclusion : Option Formula)
    (hset : ∀ f, f ∈ premises' ↔ f ∈ premises) :
    (test limits ⟨premises, conclusion⟩).Parallel
        (Row.Rearranged (atoms (premises ++ conclusion.toList)) premises premises') (test limits ⟨premises', conclusion⟩) ∧
      (test limits ⟨premises, conclusion⟩).ShowAlike (test limits ⟨premises', conclusion⟩) := by
  have hparallel : (test limits ⟨premises, conclusion⟩).Parallel
      (Row.Rearranged (atoms (premises ++ conclusion.toList)) premises premises') (test limits ⟨premises', conclusion⟩) := by
    cases premises with
    | nil =>
      obtain rfl : premises' = [] := List.eq_nil_iff_forall_not_mem.2 fun f hf => List.not_mem_nil ((hset f).1 hf)
      exact Outcome.parallel_of_no_rows rfl rfl
    | cons p ps =>
      have hne' : premises' ≠ [] := List.ne_nil_of_mem ((hset p).2 List.mem_cons_self)
      cases conclusion with
      | none =>
        obtain ⟨p', ps', rfl⟩ := List.exists_cons_of_ne_nil hne'
        exact Outcome.parallel_of_no_rows rfl rfl
      | some c =>
        have hatoms : atoms (premises' ++ [c]) = atoms (p :: ps ++ [c]) := by
          refine atoms_congr fun a => ?_
          simp only [List.mem_append, hset]
        refine parallel_test (List.cons_ne_nil p ps) hne' hatoms (fun _ _ => Row.Rearranged.isCounterexample_eq) fun v => ?_
        exact Row.rearranged_under (pairwise_atoms _) (covers_atoms _ c) hset v
  exact ⟨hparallel, hparallel.showAlike fun _ _ => Row.Rearranged.values⟩

/-- two premises in the other order, the first of them twice -/
theorem Argument.premises_unordered_repeated : (∀ f, f ∈ [Formula.var "B", .var "A", .var "B"] ↔ f ∈ [Formula.var "A", .var "B"]) ∧
    (test .standard ⟨[.var "A", .var "B"], some (.var "C")⟩).Parallel
      (Row.Rearranged ["A", "B", "C"] [.var "A", .var "B"] [.var "B", .var "A", .var "B"])
      (test .standard ⟨[.var "B", .var "A", .var "B"], some (.var "C")⟩) ∧
    (test .standard ⟨[.var "A", .var "B"], some (.var "C")⟩).ShowAlike
      (test .standard ⟨[.var "B", .var "A", .var "B"], some (.var "C")⟩) ∧
    (test .standard ⟨[.var "B", .var "A", .var "B"], some (.var "C")⟩).rows[1]?.map Row.premises = some [false, true, false] := by
  have hset : ∀ f, f ∈ [Formula.var "B", .var "A", .var "B"] ↔ f ∈ [Formula.var "A", .var "B"] := by
    intro f
    simp only [List.mem_cons, List.not_mem_nil, or_false]
    tauto
  obtain ⟨hparallel, halike⟩ := premises_unordered .standard [.var "A", .var "B"] [.var "B", .var "A", .var "B"]
    (some (.var "C")) hset
  exact ⟨hset, hparallel, halike, by decide⟩

end Sequitur
