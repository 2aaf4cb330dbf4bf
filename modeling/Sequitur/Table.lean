/-
Truth tables.

The rows of a table stand in the order of the masks, and each shows what the formulas evaluate to under its mask. The
columns are worked out first and then read row by row.

Main statement: `rows_enumerate`, each row is that of its mask.
-/
import Sequitur.Atoms
import Sequitur.Column
import Sequitur.Row

namespace Sequitur

/-- the row of one mask -/
def Row.ofMask (premises : List Formula) (conclusion : Formula) (atoms : List String) (mask : Nat) : Row :=
  ⟨(List.range atoms.length).map mask.testBit, premises.map (Formula.holds (maskValue atoms mask)),
    conclusion.holds (maskValue atoms mask)⟩

/-- atoms, and rows over them -/
structure Table where
  atoms : List String
  rows : List Row
  deriving DecidableEq

namespace Table

/-- the table of all assignments -/
def enumerate (premises : List Formula) (conclusion : Formula) (atoms : List String) : Table :=
  let values := (List.range (maskCount atoms.length)).map fun mask => (List.range atoms.length).map mask.testBit
  let premises := Column.beside atoms.length (premises.map (Formula.column atoms))
  let conclusion := Column.bits atoms.length (conclusion.column atoms)
  ⟨atoms, List.zipWith (fun row c => row c) (List.zipWith Row.mk values premises) conclusion⟩

/-- the rows that refute the argument, in order -/
def counterexamples (t : Table) : List Row := t.rows.filter Row.isCounterexample

@[simp] theorem atoms_enumerate (premises : List Formula) (conclusion : Formula) (atoms : List String) :
    (enumerate premises conclusion atoms).atoms = atoms := rfl

theorem rows_enumerate (premises : List Formula) (conclusion : Formula) (atoms : List String) :
    (enumerate premises conclusion atoms).rows =
      (List.range (maskCount atoms.length)).map (Row.ofMask premises conclusion atoms) := by
  simp only [enumerate, Column.beside_eq, Column.bits_eq, List.zipWith_map, List.zipWith_self, List.map_map]
  refine List.map_congr_left fun mask h => ?_
  have hm := List.mem_range.1 h
  simp [Row.ofMask, Formula.getLsbD_column _ hm, Function.comp_def]

@[simp] theorem length_enumerate (premises : List Formula) (conclusion : Formula) (atoms : List String) :
    (enumerate premises conclusion atoms).rows.length = maskCount atoms.length := by
  simp [rows_enumerate]

end Table

end Sequitur
