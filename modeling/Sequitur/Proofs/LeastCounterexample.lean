/-
The example of an invalid argument.

A checked argument that is not valid comes with an example: one assignment under which all premises are true and the
conclusion is false. It is found by looking through the rows of the table, whose values are columns of bits, but it is told as
an assignment of names. So it can be checked without the table: evaluating the formulas anew under it gives what the example
says. Rows stand in the order of their masks, and the example is the first of those that refute the argument.

- `Table.head?_counterexamples`: the first counterexample is the row with the least mask;
- `Argument.example_is_least`: there is an example exactly if the argument is not valid, and it shows the least assignment of
  the atoms that refutes it.
-/
import Mathlib
import Sequitur.Proofs.Assignments
import Sequitur.Proofs.Entailment

namespace Sequitur

/-- under the assignment all premises evaluate to true and the conclusion to false -/
structure Assignment.Refutes (s : Assignment) (premises : List Formula) (conclusion : Formula) : Prop where
  premises : ∀ p ∈ premises, p.eval s.value? = .ok true
  conclusion : conclusion.eval s.value? = .ok false

/-- an example is the least assignment of the atoms that refutes an argument, told in full -/
structure Example.IsLeast (e : Example) (atoms : List String) (premises : List Formula) (conclusion : Formula) : Prop where
  names : e.values.map Prod.fst = atoms
  refutes : e.values.Refutes premises conclusion
  least : ∀ s : Assignment, s.map Prod.fst = atoms → s.Refutes premises conclusion → e.values.mask ≤ s.mask
  /-- every atom once, in order, with its value -/
  scenario : e.scenario = ", ".intercalate (e.values.map fun p => p.1 ++ "=" ++ truthWord p.2)
  premises : e.premises = premises.map fun _ => true
  conclusion : e.conclusion = false

section

variable {premises : List Formula} {conclusion : Formula} {atoms : List String} {v : String → Bool} {r : Row}

/-- an assignment refutes as the interpretation does that it writes out -/
theorem Assignment.refutes_under_iff (hc : Covers atoms premises conclusion) :
    (under atoms v).Refutes premises conclusion ↔ (∀ p ∈ premises, p.truth v = true) ∧ conclusion.truth v = false := by
  have heval : ∀ f ∈ premises ++ [conclusion], f.eval (under atoms v).value? = .ok (f.truth v) :=
    fun f hf => Formula.eval_under (hc f hf)
  have hpremise : ∀ p ∈ premises, p.eval (under atoms v).value? = .ok (p.truth v) :=
    fun p hp => heval p (List.mem_append_left _ hp)
  have hconclusion := heval conclusion (List.mem_append_right _ (List.mem_singleton.2 rfl))
  constructor
  · intro h
    refine ⟨fun p hp => ?_, Except.ok.inj (hconclusion.symm.trans h.conclusion)⟩
    exact Except.ok.inj ((hpremise p hp).symm.trans (h.premises p hp))
  · intro h
    refine ⟨fun p hp => ?_, ?_⟩
    · rw [hpremise p hp, h.1 p hp]
    · rw [hconclusion, h.2]

/-- the first counterexample is the row of the least mask that has one -/
theorem Table.head?_counterexamples : (enumerate premises conclusion atoms).counterexamples.head? = some r ↔
    ∃ m < maskCount atoms.length, r = Row.ofMask premises conclusion atoms m ∧ r.isCounterexample = true ∧
      ∀ k < m, (Row.ofMask premises conclusion atoms k).isCounterexample = false := by
  rw [counterexamples, List.head?_filter, rows_enumerate, List.find?_map, Option.map_eq_some_iff]
  constructor
  · intro h
    obtain ⟨m, hfind, hr⟩ := h
    rw [List.find?_range_eq_some] at hfind
    obtain ⟨hrefutes, hm, hbefore⟩ := hfind
    refine ⟨m, List.mem_range.1 hm, hr.symm, ?_, fun k hk => ?_⟩
    · rw [← hr]
      exact hrefutes
    · simpa using hbefore k hk
  · intro h
    obtain ⟨m, hm, rfl, hrefutes, hbefore⟩ := h
    refine ⟨m, List.find?_range_eq_some.2 ⟨hrefutes, List.mem_range.2 hm, fun k hk => ?_⟩, rfl⟩
    simp [hbefore k hk]

/-- what is told of the first counterexample -/
theorem Table.example_isLeast (hasc : atoms.Pairwise (· < ·)) (hn : atoms.Nodup) (hc : Covers atoms premises conclusion)
    {e : Example} (he : (Outcome.checked (enumerate premises conclusion atoms)).example? = some e) :
    e.IsLeast atoms premises conclusion := by
  obtain ⟨r, hfirst, rfl⟩ := Option.map_eq_some_iff.1 he
  obtain ⟨m, hm, hr, hrefutes, hbefore⟩ := head?_counterexamples.1 hfirst
  -- the row is that of an interpretation, which its assignment writes out
  have hmask : maskOf atoms (interpretationOf atoms m) = m := maskOf_interpretationOf hn hm
  have hunder : r = Row.under premises conclusion atoms (interpretationOf atoms m) := by
    rw [hr, ← Row.ofMask_maskOf hc, hmask]
  have hvalues : r.assignment atoms = Assignment.under atoms (interpretationOf atoms m) := by
    rw [hunder, Row.assignment_under hasc]
  rw [hunder, Row.isCounterexample_under] at hrefutes
  constructor
  case names =>
    change (r.assignment atoms).map Prod.fst = atoms
    rw [hvalues, Assignment.names_under]
  case refutes =>
    change (r.assignment atoms).Refutes premises conclusion
    rw [hvalues]
    exact (Assignment.refutes_under_iff hc).2 hrefutes
  case least =>
    change ∀ s : Assignment, s.map Prod.fst = atoms → s.Refutes premises conclusion → (r.assignment atoms).mask ≤ s.mask
    intro s hs hrefuted
    obtain ⟨w, hw⟩ := Assignment.exists_eq_under (hs ▸ hn)
    rw [hs] at hw
    rw [hw, Assignment.refutes_under_iff hc, ← @Row.isCounterexample_under premises conclusion atoms w,
      ← Row.ofMask_maskOf hc] at hrefuted
    rw [hvalues, hw, Assignment.mask_under, Assignment.mask_under, hmask]
    by_contra hlt
    rw [hbefore _ (Nat.not_le.1 hlt)] at hrefuted
    cases hrefuted
  case scenario =>
    change r.scenario atoms = ", ".intercalate ((r.assignment atoms).map fun p => p.1 ++ "=" ++ truthWord p.2)
    rw [hvalues, Row.scenario, hunder, Table.zip_values_under]
  case premises =>
    change r.premises = premises.map fun _ => true
    rw [hunder, Row.under]
    exact List.map_congr_left hrefutes.1
  case conclusion =>
    change r.conclusion = false
    rw [hunder]
    exact hrefutes.2

end

namespace Argument

/-- **The example is the least counterexample.** A checked argument has an example exactly if it is not valid. The example
names the atoms, each with its value; evaluating the formulas under it makes all premises true and the conclusion false; and
among all assignments of the atoms that do so it has the least mask. -/
theorem example_is_least (limits : Limits) (arg : Argument Formula) (h : (test limits arg).status = .checked) :
    ∃ conclusion, arg.conclusion = some conclusion ∧
      ((test limits arg).example?.isSome = true ↔ (test limits arg).isValid = false) ∧
      ∀ e, (test limits arg).example? = some e → e.IsLeast (test limits arg).atoms arg.premises conclusion := by
  obtain ⟨c, hc, ht⟩ := eq_of_checked h
  refine ⟨c, hc, ?_, ?_⟩
  · rw [ht]
    simp [Outcome.example?, Outcome.isValid, Outcome.counterexamples]
  · rw [ht]
    intro e he
    exact Table.example_isLeast (pairwise_atoms _) (nodup_atoms _) (covers_atoms _ _) he

/-- from `P -> Q` and `Q` to `P` -/
def affirmingTheConsequent : Argument Formula :=
  ⟨[.bin .impl (.var "P") (.var "Q"), .var "Q"], some (.var "P")⟩

theorem example_is_least_affirmingTheConsequent :
    (test .standard affirmingTheConsequent).status = .checked ∧
      (∃ conclusion, some (Formula.var "P") = some conclusion ∧
        ((test .standard affirmingTheConsequent).example?.isSome = true ↔
          (test .standard affirmingTheConsequent).isValid = false) ∧
        ∀ e, (test .standard affirmingTheConsequent).example? = some e →
          e.IsLeast (test .standard affirmingTheConsequent).atoms affirmingTheConsequent.premises conclusion) ∧
      (test .standard affirmingTheConsequent).example?.map Example.values = some [("P", false), ("Q", true)] :=
  ⟨by decide, example_is_least .standard affirmingTheConsequent (by decide), by decide⟩

end Argument

end Sequitur
