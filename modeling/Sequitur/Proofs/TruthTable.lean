/-
The truth table is exact.

`Outcome.Exact` says what a complete table is, without mentioning how it was made: its atoms are the names that occur, in
ascending order; there is one row for each assignment, row `m` holding the bits of `m`; the truth values in a row are the
classical ones under every interpretation that gives the atoms the row's values; the counterexamples are the rows that are
not valid, in their order.

- `Argument.exact_of_checked`: every checked test is exact.
-/
import Mathlib
import Sequitur.Proofs.Checked

namespace Sequitur

/-- what a complete table shows of an argument -/
structure Outcome.Exact (o : Outcome) (premises : List Formula) (conclusion : Formula) : Prop where
  ascending : o.atoms.Pairwise (· < ·)
  mem_atoms_iff : ∀ a, a ∈ o.atoms ↔ ∃ f ∈ premises ++ [conclusion], a ∈ f.occurrences
  length_rows : o.rows.length = 2 ^ o.atoms.length
  /-- bit `i` of its number is the value of atom `i` in a row -/
  values : ∀ (m : Nat) (hm : m < o.rows.length),
    o.rows[m].values.length = o.atoms.length ∧ ∀ i < o.atoms.length, o.rows[m].values[i]? = some (m.testBit i)
  /-- every assignment has one row -/
  one_row : ∀ values : List Bool, values.length = o.atoms.length →
    ∃! m, ∃ hm : m < o.rows.length, o.rows[m].values = values
  /-- every row is an assignment -/
  interpreted : ∀ r ∈ o.rows, ∃ v, o.atoms.map v = r.values
  /-- premises and conclusion have their classical truth values -/
  truth : ∀ r ∈ o.rows, ∀ v : String → Bool, o.atoms.map v = r.values →
    r.premises = premises.map (Formula.truth v) ∧ r.conclusion = conclusion.truth v
  allPremises : ∀ r ∈ o.rows, ∀ v : String → Bool, o.atoms.map v = r.values →
    (r.allPremises = true ↔ ∀ p ∈ premises, p.truth v = true)
  valid : ∀ r ∈ o.rows, r.valid = (!r.allPremises || r.conclusion)
  counterexamples : o.counterexamples = o.rows.filter fun r => r.valid = false
  verdict : o.isValid = true ↔ o.counterexamples = []

namespace Table

variable {premises : List Formula} {conclusion : Formula} {atoms : List String}

/-- the values of row `m` are the bits of `m` -/
theorem values_getElem {m : Nat} (hm : m < (enumerate premises conclusion atoms).rows.length) :
    ((enumerate premises conclusion atoms).rows[m]).values = (List.range atoms.length).map m.testBit := by
  simp [rows_enumerate, Row.ofMask]

/-- in row `m` bit `i` of `m` is the value of atom `i` -/
theorem getElem?_values {m : Nat} (hm : m < (enumerate premises conclusion atoms).rows.length) :
    ((enumerate premises conclusion atoms).rows[m]).values.length = atoms.length ∧
      ∀ i < atoms.length, ((enumerate premises conclusion atoms).rows[m]).values[i]? = some (m.testBit i) := by
  rw [values_getElem]
  refine ⟨by simp, ?_⟩
  intro i hi
  simp [hi]

/-- some row shows any given values, and no other row does -/
theorem one_row {values : List Bool} (hl : values.length = atoms.length) :
    ∃! m, ∃ hm : m < (enumerate premises conclusion atoms).rows.length,
      ((enumerate premises conclusion atoms).rows[m]).values = values := by
  have hrows : (enumerate premises conclusion atoms).rows.length = maskCount atoms.length := length_enumerate _ _ _
  have hlt : Nat.ofBits (fun i : Fin values.length => values[i]) < maskCount atoms.length := by
    rw [maskCount_eq, ← hl]
    exact Nat.ofBits_lt_two_pow _
  refine ⟨Nat.ofBits fun i : Fin values.length => values[i], ⟨hrows ▸ hlt, ?_⟩, ?_⟩
  · rw [values_getElem]
    apply List.ext_getElem
    · simp [hl]
    · intro i _ hi
      simp [Nat.testBit_ofBits_lt _ i hi]
  · rintro m ⟨hm, hv⟩
    rw [values_getElem] at hv
    apply eq_of_testBit_lt (hrows ▸ hm) hlt
    intro i hi
    have hbit : m.testBit i = values[i] := by simp [← hv]
    rw [hbit, Nat.testBit_ofBits_lt _ i (hl ▸ hi)]
    rfl

/-- a row is the classical one under every interpretation that gives the atoms its values -/
theorem eq_under_of_values (hn : atoms.Nodup) (hc : Covers atoms premises conclusion) {r : Row} {v : String → Bool}
    (hr : r ∈ (enumerate premises conclusion atoms).rows) (hv : atoms.map v = r.values) :
    r = Row.under premises conclusion atoms v := by
  obtain ⟨w, rfl⟩ := (mem_rows_enumerate hn hc).1 hr
  have hsame : ∀ a ∈ atoms, w a = v a := List.map_inj_left.1 hv.symm
  exact Row.under_congr hc hsame

end Table

namespace Argument

/-- **The table of a checked argument is exact.** -/
theorem exact_of_checked (limits : Limits) (arg : Argument Formula) (h : (test limits arg).status = .checked) :
    ∃ conclusion, arg.conclusion = some conclusion ∧ (test limits arg).Exact arg.premises conclusion := by
  obtain ⟨c, hc, ht⟩ := eq_of_checked h
  have hn : (atoms (arg.premises ++ [c])).Nodup := nodup_atoms _
  have hcov : Covers (atoms (arg.premises ++ [c])) arg.premises c := covers_atoms _ _
  refine ⟨c, hc, ?_⟩
  rw [ht]
  constructor
  case ascending => exact pairwise_atoms _
  case mem_atoms_iff => exact fun a => mem_atoms
  case length_rows =>
    rw [Outcome.rows, Table.length_enumerate, maskCount_eq]
    rfl
  case values => exact fun m hm => Table.getElem?_values hm
  case one_row => exact fun _ hl => Table.one_row hl
  case interpreted =>
    intro r hr
    obtain ⟨v, rfl⟩ := (Table.mem_rows_enumerate hn hcov).1 hr
    exact ⟨v, rfl⟩
  case truth =>
    intro r hr v hv
    rw [Table.eq_under_of_values hn hcov hr hv]
    exact ⟨rfl, rfl⟩
  case allPremises =>
    intro r hr v hv
    rw [Table.eq_under_of_values hn hcov hr hv]
    simp [Row.allPremises, Row.under]
  case valid => exact fun _ _ => rfl
  case counterexamples =>
    apply List.filter_congr
    intro r _
    simp [Row.valid_eq_not_isCounterexample]
  case verdict => exact List.isEmpty_iff

/-- modus ponens is checked under the standard ceiling -/
theorem exact_of_checked_modusPonens :
    (test .standard ⟨modusPonens, some (.var "Q")⟩).status = .checked ∧
      ∃ conclusion, some (Formula.var "Q") = some conclusion ∧
        (test .standard ⟨modusPonens, some (.var "Q")⟩).Exact modusPonens conclusion :=
  ⟨by decide, exact_of_checked .standard ⟨modusPonens, some (.var "Q")⟩ (by decide)⟩

end Argument

end Sequitur
