/-
Masks and interpretations.

A table lists assignments by number, logic quantifies over interpretations of all names. `maskOf` is the number of an
interpretation: its bit at place `i` is the value of atom `i`. Every interpretation has a number below `2 ^ n`, and every such
number is that of an interpretation. Names that are no atoms make no difference to a row.

- `maskOf_interpretationOf`: every number below `2 ^ n` is that of an interpretation;
- `Row.ofMask_maskOf`: the row of a mask shows the classical truth values under its interpretations;
- `Row.under_congr`: interpretations that agree on the atoms have one row;
- `Table.mem_rows_enumerate`: the rows of a table are exactly the rows that classical logic gives.
-/
import Mathlib
import Sequitur.Proofs.Truth
import Sequitur.Table

namespace Sequitur

/-- the number of an interpretation -/
def maskOf (atoms : List String) (v : String → Bool) : Nat :=
  Nat.ofBits fun i : Fin atoms.length => v atoms[i]

/-- an interpretation with a given number; names that are no atoms are false -/
def interpretationOf (atoms : List String) (mask : Nat) : String → Bool :=
  fun a => (maskValue atoms mask a).getD false

section

variable {atoms : List String} {v : String → Bool} {mask : Nat} {a : String} {i : Nat}

theorem maskOf_lt : maskOf atoms v < maskCount atoms.length := by
  rw [maskCount_eq]
  exact Nat.ofBits_lt_two_pow _

theorem testBit_maskOf (h : i < atoms.length) : (maskOf atoms v).testBit i = v atoms[i] :=
  Nat.testBit_ofBits_lt _ i h

/-- a mask below `2 ^ n` is settled by its first `n` bits -/
theorem eq_of_testBit_lt {n m k : Nat} (hm : m < maskCount n) (hk : k < maskCount n)
    (h : ∀ i < n, m.testBit i = k.testBit i) : m = k := by
  rw [maskCount_eq] at hm hk
  apply Nat.eq_of_testBit_eq
  intro i
  by_cases hi : i < n
  · exact h i hi
  · have hn : 2 ^ n ≤ 2 ^ i := Nat.pow_le_pow_right (by decide) (Nat.not_lt.1 hi)
    rw [Nat.testBit_lt_two_pow (lt_of_lt_of_le hm hn), Nat.testBit_lt_two_pow (lt_of_lt_of_le hk hn)]

theorem eq_maskOf (hm : mask < maskCount atoms.length) (h : ∀ i (hi : i < atoms.length), mask.testBit i = v atoms[i]) :
    mask = maskOf atoms v := by
  apply eq_of_testBit_lt hm maskOf_lt
  intro i hi
  rw [h i hi, testBit_maskOf hi]

theorem idxOf?_of_mem (ha : a ∈ atoms) : atoms.idxOf? a = some (atoms.idxOf a) := by
  have hlt : atoms.idxOf a < atoms.length := List.idxOf_lt_length_iff.2 ha
  exact List.idxOf?_eq_some_iff.2
    ⟨hlt, List.getElem_idxOf hlt, fun j hj => ne_of_beq_false (List.not_of_lt_findIdx hj)⟩

theorem maskValue_of_mem (ha : a ∈ atoms) : maskValue atoms mask a = some (mask.testBit (atoms.idxOf a)) := by
  rw [maskValue, idxOf?_of_mem ha]
  rfl

theorem interpretationOf_of_mem (ha : a ∈ atoms) : interpretationOf atoms mask a = mask.testBit (atoms.idxOf a) := by
  rw [interpretationOf, maskValue_of_mem ha]
  rfl

/-- a mask gives every atom a value, that of the interpretation with its number -/
theorem maskValue_eq_interpretationOf (ha : a ∈ atoms) : maskValue atoms mask a = some (interpretationOf atoms mask a) := by
  rw [maskValue_of_mem ha, interpretationOf_of_mem ha]

theorem maskValue_maskOf (ha : a ∈ atoms) : maskValue atoms (maskOf atoms v) a = some (v a) := by
  have hlt : atoms.idxOf a < atoms.length := List.idxOf_lt_length_iff.2 ha
  rw [maskValue_of_mem ha, testBit_maskOf hlt, List.getElem_idxOf]

theorem maskOf_interpretationOf (hn : atoms.Nodup) (hm : mask < maskCount atoms.length) :
    maskOf atoms (interpretationOf atoms mask) = mask := by
  symm
  apply eq_maskOf hm
  intro i hi
  rw [interpretationOf_of_mem (List.getElem_mem hi), hn.idxOf_getElem i hi]

theorem map_testBit_maskOf : (List.range atoms.length).map (maskOf atoms v).testBit = atoms.map v := by
  apply List.ext_getElem
  · simp
  · intro i hi _
    have hlt : i < atoms.length := by simpa using hi
    simp [testBit_maskOf hlt]

end

/-- the row that classical logic gives under an interpretation -/
def Row.under (premises : List Formula) (conclusion : Formula) (atoms : List String) (v : String → Bool) : Row :=
  ⟨atoms.map v, premises.map (Formula.truth v), conclusion.truth v⟩

section

variable {premises : List Formula} {conclusion : Formula} {atoms : List String} {v w : String → Bool}

/-- all variables of an argument are among the atoms -/
def Covers (atoms : List String) (premises : List Formula) (conclusion : Formula) : Prop :=
  ∀ f ∈ premises ++ [conclusion], ∀ a ∈ f.occurrences, a ∈ atoms

theorem Row.ofMask_maskOf (hc : Covers atoms premises conclusion) :
    Row.ofMask premises conclusion atoms (maskOf atoms v) = Row.under premises conclusion atoms v := by
  have holds : ∀ f ∈ premises ++ [conclusion], f.holds (maskValue atoms (maskOf atoms v)) = f.truth v := by
    intro f hf
    exact Formula.holds_eq_truth fun a ha => maskValue_maskOf (hc f hf a ha)
  have hp : premises.map (Formula.holds (maskValue atoms (maskOf atoms v))) = premises.map (Formula.truth v) := by
    apply List.map_congr_left
    intro p hp
    exact holds p (List.mem_append_left _ hp)
  have hq := holds conclusion (List.mem_append_right _ (List.mem_singleton.2 rfl))
  rw [Row.ofMask, Row.under, map_testBit_maskOf, hp, hq]

/-- a row shows of an interpretation what it says of the atoms, and nothing else -/
theorem Row.under_congr (hc : Covers atoms premises conclusion) (h : ∀ a ∈ atoms, v a = w a) :
    Row.under premises conclusion atoms v = Row.under premises conclusion atoms w := by
  have htruth : ∀ f ∈ premises ++ [conclusion], f.truth v = f.truth w := by
    intro f hf
    exact Formula.truth_congr fun a ha => h a (hc f hf a ha)
  have hvalues : atoms.map v = atoms.map w := List.map_congr_left h
  have hpremises : premises.map (Formula.truth v) = premises.map (Formula.truth w) := by
    apply List.map_congr_left
    intro p hp
    exact htruth p (List.mem_append_left _ hp)
  have hconclusion := htruth conclusion (List.mem_append_right _ (List.mem_singleton.2 rfl))
  rw [Row.under, Row.under, hvalues, hpremises, hconclusion]

/-- the rows of a table are those of classical logic, no more and no fewer -/
theorem Table.mem_rows_enumerate (hn : atoms.Nodup) (hc : Covers atoms premises conclusion) {r : Row} :
    r ∈ (Table.enumerate premises conclusion atoms).rows ↔ ∃ v, r = Row.under premises conclusion atoms v := by
  rw [Table.rows_enumerate, List.mem_map]
  constructor
  · rintro ⟨mask, hm, rfl⟩
    refine ⟨interpretationOf atoms mask, ?_⟩
    rw [← Row.ofMask_maskOf hc, maskOf_interpretationOf hn (List.mem_range.1 hm)]
  · rintro ⟨v, rfl⟩
    exact ⟨maskOf atoms v, List.mem_range.2 maskOf_lt, Row.ofMask_maskOf hc⟩

end

end Sequitur
