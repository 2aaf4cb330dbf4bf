/-
Tests that run to the end.

A test ends in a table when there are a premise and a conclusion and the atoms fit under the ceiling; the table is then
the one of all assignments of exactly those atoms.

- `length_atoms` and `atoms_congr`: there are as many atoms as distinct names, and they depend on nothing else;
- `Argument.test_eq_checked`, `Argument.eq_of_checked` and `Argument.test_checked_iff`: when a test is checked, and of which
  table.
-/
import Mathlib
import Sequitur.Argument
import Sequitur.Proofs.Masks

namespace Sequitur

/-! ## The atoms of an argument -/

theorem nodup_of_ascending {as : List String} (h : as.Pairwise (· < ·)) : as.Nodup := by
  refine h.imp ?_
  intro a b hlt heq
  subst heq
  exact String.lt_irrefl a hlt

theorem nodup_atoms (fs : List Formula) : (atoms fs).Nodup := nodup_of_ascending (pairwise_atoms fs)

/-- ascending lists of the same names are the same -/
theorem eq_of_ascending {as bs : List String} (ha : as.Pairwise (· < ·)) (hb : bs.Pairwise (· < ·))
    (h : ∀ a, a ∈ as ↔ a ∈ bs) : as = bs := by
  have hantisymm : ∀ a b : String, a < b → b < a → a = b :=
    fun a b hab hba => absurd (String.lt_trans hab hba) (String.lt_irrefl a)
  have : Std.Antisymm fun a b : String => a < b := ⟨hantisymm⟩
  exact ha.eq_of_mem_iff hb h

/-- formulas in which the same names occur have the same atoms -/
theorem atoms_congr {fs gs : List Formula}
    (h : ∀ a, (∃ f ∈ fs, a ∈ f.occurrences) ↔ ∃ f ∈ gs, a ∈ f.occurrences) : atoms fs = atoms gs := by
  refine eq_of_ascending (pairwise_atoms fs) (pairwise_atoms gs) fun a => ?_
  rw [mem_atoms, mem_atoms, h a]

/-- the atoms are as many as there are distinct names -/
theorem length_atoms (fs : List Formula) : (atoms fs).length = (fs.flatMap Formula.occurrences).toFinset.card := by
  rw [← List.toFinset_card_of_nodup (nodup_atoms fs)]
  congr 1
  ext a
  rw [List.mem_toFinset, List.mem_toFinset, mem_atoms, List.mem_flatMap]

theorem covers_atoms (premises : List Formula) (conclusion : Formula) :
    Covers (atoms (premises ++ [conclusion])) premises conclusion := by
  intro f hf a ha
  exact mem_atoms.2 ⟨f, hf, ha⟩

/-- a checked outcome is valid if it lists no counterexample -/
theorem Outcome.isValid_iff {o : Outcome} (h : o.status = .checked) : o.isValid = true ↔ o.counterexamples = [] := by
  cases o with
  | checked t => exact List.isEmpty_iff
  | _ => cases h

/-- so of two tables with equally many counterexamples both are valid or neither -/
theorem Outcome.isValid_checked_congr {t t' : Table} (h : t'.counterexamples.length = t.counterexamples.length) :
    (checked t').isValid = (checked t).isValid := by
  rw [Bool.eq_iff_iff, isValid_iff rfl, isValid_iff rfl, ← List.length_eq_zero_iff, ← List.length_eq_zero_iff]
  change t'.counterexamples.length = 0 ↔ t.counterexamples.length = 0
  rw [h]

namespace Argument

/-! ## Their tables -/

theorem test_eq_checked {limits : Limits} {premises : List Formula} {conclusion : Formula} (hne : premises ≠ [])
    (hle : (atoms (premises ++ [conclusion])).length ≤ limits.atomLimit) :
    test limits ⟨premises, some conclusion⟩ =
      .checked (Table.enumerate premises conclusion (atoms (premises ++ [conclusion]))) := by
  cases premises with
  | nil => exact absurd rfl hne
  | cons p ps => exact if_pos hle

/-- a checked test had a conclusion, and lists all assignments of the atoms -/
theorem eq_of_checked {limits : Limits} {arg : Argument Formula} (h : (test limits arg).status = .checked) :
    ∃ conclusion, arg.conclusion = some conclusion ∧ test limits arg =
      .checked (Table.enumerate arg.premises conclusion (atoms (arg.premises ++ [conclusion]))) := by
  obtain ⟨premises, conclusion⟩ := arg
  cases premises with
  | nil => cases h
  | cons p ps =>
    cases conclusion with
    | none => cases h
    | some c =>
      by_cases hle : (atoms (p :: ps ++ [c])).length ≤ limits.atomLimit
      · exact ⟨c, rfl, if_pos hle⟩
      · simp only [test, if_neg hle] at h
        cases h

/-- a test is checked exactly if there is a premise and the atoms are few enough -/
theorem test_checked_iff {limits : Limits} {premises : List Formula} {conclusion : Formula} :
    (test limits ⟨premises, some conclusion⟩).status = .checked ↔
      premises ≠ [] ∧ (atoms (premises ++ [conclusion])).length ≤ limits.atomLimit := by
  constructor
  · intro h
    cases premises with
    | nil => cases h
    | cons p ps =>
      refine ⟨List.cons_ne_nil _ _, ?_⟩
      by_contra hlt
      simp only [test, if_neg hlt] at h
      cases h
  · rintro ⟨hne, hle⟩
    rw [test_eq_checked hne hle]
    rfl

end Argument

end Sequitur
