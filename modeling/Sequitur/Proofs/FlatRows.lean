/-
Rows as flat objects.

In a report a row is one object, in which atoms and columns stand side by side: first the atoms in their order, then the
columns. Names of atoms are free, so an atom may be called like a column, and there are then two entries with one key. Readers
of JSON keep the last of them. What they see is the column; under every other name of an atom they see its bit of the mask, and
nothing else is there. In the table no column is called `scenario`, so an atom of that name is seen there, and among the
counterexamples it is not.

- `Json.field?`: what is seen under a key;
- `Row.flat`: a row with a value for every atom is written as `Row.Flat` says;
- `Argument.flat_of_checked`: so are all rows of a checked test, in the text that its report is written as.
-/
import Mathlib
import Sequitur.Archive.RoundTrip
import Sequitur.Outcome.Report
import Sequitur.Proofs.TruthTable

namespace Sequitur

open Json

namespace Json

/-- the entries of an object, in the order they are written, repetitions included -/
def entries : Json → List (String × Json)
  | obj fields => fields
  | _ => []

/-- what is seen under a key by a reader that keeps the last of several entries -/
def field? (key : String) (v : Json) : Option Json := v.entries.reverse.lookup key

end Json

/-- the columns of a row, and its scenario where that is shown -/
def Row.columns (atoms : List String) (withScenario : Bool) (r : Row) : List (String × Json) :=
  [("premises", bools r.premises), ("conclusion", .bool r.conclusion), ("ALL_PREMISES", .bool r.allPremises),
    ("VALID", .bool r.valid)] ++ if withScenario then [("scenario", .str (r.scenario atoms))] else []

/-- the row of a mask is written and seen as it should be -/
structure Row.Flat (atoms : List String) (withScenario : Bool) (mask : Nat) (r : Row) (written : Json) : Prop where
  /-- as many entries as were announced -/
  length : written.entries.length = atoms.length + if withScenario then 5 else 4
  /-- the atoms come first, in their order -/
  atoms_first : atoms <+: written.entries.map Prod.fst
  /-- a column is seen, also where an atom has its name -/
  column : ∀ key value, (key, value) ∈ r.columns atoms withScenario → written.field? key = some value
  /-- another atom is seen with its bit -/
  bit : ∀ (i : Nat) (hi : i < atoms.length), atoms[i] ∉ (r.columns atoms withScenario).map Prod.fst →
    written.field? atoms[i] = some (.bool (mask.testBit i))
  only : ∀ key, written.field? key ≠ none → key ∈ (r.columns atoms withScenario).map Prod.fst ∨ key ∈ atoms

/-- this is how the row of a mask is written -/
def Outcome.FlatAt (o : Outcome) (withScenario : Bool) (mask : Nat) (written : Json) : Prop :=
  ∃ r, o.rows[mask]? = some r ∧ r.Flat o.atoms withScenario mask written

/-- the masks whose rows are counterexamples, in order -/
def Outcome.refutingMasks (o : Outcome) : List Nat :=
  (List.range (2 ^ o.atoms.length)).filter fun mask => o.rows[mask]?.any Row.isCounterexample

/-- a report that shows the rows of an outcome as flat objects -/
structure Outcome.Flat (o : Outcome) (report : Json) : Prop where
  truthTable : ∃ written, report.field? "truthTable" = some (.arr written) ∧
    List.Forall₂ (o.FlatAt false) (List.range (2 ^ o.atoms.length)) written
  counterexamples : ∃ written, report.field? "counterexamples" = some (.arr written) ∧
    List.Forall₂ (o.FlatAt true) o.refutingMasks written

/-! ## The last entry -/

namespace Json

variable {fields fields' : List (String × Json)} {key : String} {v : Json}

theorem field?_append : (obj (fields ++ fields')).field? key = ((obj fields').field? key).or ((obj fields).field? key) := by
  simp only [field?, entries, List.reverse_append, List.lookup_append]

theorem field?_eq_none_iff : (obj fields).field? key = none ↔ key ∉ fields.map Prod.fst := by
  simp only [field?, entries, List.lookup_eq_none_iff, List.mem_reverse, List.mem_map, not_exists, not_and, bne_iff_ne]
  exact forall₂_congr fun _ _ => ne_comm

/-- where no key is repeated, an entry is seen -/
theorem field?_of_mem (hn : (fields.map Prod.fst).Nodup) (h : (key, v) ∈ fields) : (obj fields).field? key = some v := by
  obtain ⟨before, after, rfl⟩ := List.append_of_mem h
  rw [List.map_append, List.map_cons, List.nodup_append] at hn
  have hafter : (obj after).field? key = none := field?_eq_none_iff.2 (List.nodup_cons.1 hn.2.1).1
  rw [field?_append, ← List.singleton_append, field?_append, hafter]
  simp [field?, entries]

theorem plainFields_iff : PlainFields fields ↔ ∀ f ∈ fields, Plain f.2 := by
  induction fields with
  | nil => simp [PlainFields]
  | cons f fields ih => rw [PlainFields, ih, List.forall_mem_cons]

theorem plain_bools (l : List Bool) : Plain (bools l) := plainItems_map (f := bool) (fun _ => trivial) l

end Json

theorem Assignment.plain_report (s : List (String × Bool)) : ∀ f ∈ Assignment.report s, Plain f.2 := by
  intro f hf
  obtain ⟨p, -, rfl⟩ := List.mem_map.1 hf
  trivial

/-! ## One row -/

namespace Row

variable {atoms : List String} {withScenario : Bool} {r : Row}

/-- the row as it is written -/
def written (atoms : List String) (withScenario : Bool) (r : Row) : Json :=
  .obj (if withScenario then r.refutingFields atoms else r.fields atoms)

/-- the columns come behind the atoms -/
theorem entries_written : (r.written atoms withScenario).entries =
    Assignment.report (atoms.zip r.values) ++ r.columns atoms withScenario := by
  cases withScenario with
  | false => rfl
  | true => exact List.append_assoc _ _ _

theorem written_eq : r.written atoms withScenario =
    .obj (Assignment.report (atoms.zip r.values) ++ r.columns atoms withScenario) := by
  rw [← entries_written]
  rfl

theorem length_columns : (r.columns atoms withScenario).length = if withScenario then 5 else 4 := by
  cases withScenario <;> rfl

theorem nodup_columns : ((r.columns atoms withScenario).map Prod.fst).Nodup := by
  have hnames : ((r.columns atoms withScenario).map Prod.fst) =
      ["premises", "conclusion", "ALL_PREMISES", "VALID"] ++ if withScenario then ["scenario"] else [] := by
    cases withScenario <;> rfl
  rw [hnames]
  cases withScenario <;> decide

theorem plain_written : (r.written atoms withScenario).Plain := by
  rw [written_eq, Plain, plainFields_iff]
  refine List.forall_mem_append.2 ⟨Assignment.plain_report _, ?_⟩
  cases withScenario <;> simp [columns, Plain, plain_bools]

/-- **One row.** A row with a bit for every atom is written flat, whatever the atoms are called. -/
theorem flat {mask : Nat} (hn : atoms.Nodup) (hlength : r.values.length = atoms.length)
    (hbits : ∀ i < atoms.length, r.values[i]? = some (mask.testBit i)) :
    r.Flat atoms withScenario mask (r.written atoms withScenario) := by
  -- no atom is lost when the values are put beside the atoms
  have hnames : (Assignment.report (atoms.zip r.values)).map Prod.fst = atoms := by
    rw [Assignment.report, List.map_map, show Prod.fst ∘ (fun p : String × Bool => (p.1, Json.bool p.2)) = Prod.fst from rfl,
      List.map_fst_zip hlength.ge]
  have hfield (key : String) : (r.written atoms withScenario).field? key =
      ((obj (r.columns atoms withScenario)).field? key).or ((obj (Assignment.report (atoms.zip r.values))).field? key) := by
    rw [written_eq, field?_append]
  constructor
  case length =>
    have hreport := congrArg List.length hnames
    rw [List.length_map] at hreport
    rw [entries_written, List.length_append, hreport, length_columns]
  case atoms_first =>
    rw [entries_written, List.map_append, hnames]
    exact List.prefix_append _ _
  case column =>
    intro key value hcolumn
    rw [hfield, field?_of_mem nodup_columns hcolumn, Option.some_or]
  case bit =>
    intro i hi hother
    rw [hfield, field?_eq_none_iff.2 hother, Option.none_or]
    refine field?_of_mem (by rwa [hnames]) (List.mem_map.2 ⟨(atoms[i], mask.testBit i), ?_, rfl⟩)
    exact List.mem_of_getElem? (List.getElem?_zip_eq_some.2 ⟨List.getElem?_eq_getElem hi, hbits i hi⟩)
  case only =>
    intro key hseen
    by_contra hnone
    rw [not_or] at hnone
    refine hseen ?_
    rw [hfield, field?_eq_none_iff.2 hnone.1, field?_eq_none_iff.2 (by rw [hnames]; exact hnone.2), Option.none_or]

end Row

/-! ## Reports -/

namespace Outcome

variable {o : Outcome} {premises : List Formula} {conclusion : Formula} {atoms : List String}

theorem field?_truthTable (t : Table) : (checked t).report.field? "truthTable" =
    some (.arr (t.rows.map (Row.written t.atoms false))) := rfl

theorem field?_counterexamples (t : Table) : (checked t).report.field? "counterexamples" =
    some (.arr (t.counterexamples.map (Row.written t.atoms true))) := rfl

/-- what is told of a table has no number that could be too long -/
theorem plain_report (t : Table) : (checked t).report.Plain := by
  rw [report, Plain, plainFields_iff]
  refine List.forall_mem_append.2 ⟨?_, by simp [fault?]⟩
  simp only [List.forall_mem_cons, List.not_mem_nil, false_imp_iff, implies_true, and_true]
  refine ⟨trivial, trivial, plain_strs _, plainItems_map (f := Row.written t.atoms false) (fun _ => Row.plain_written) _,
    plainItems_map (f := Row.written t.atoms true) (fun _ => Row.plain_written) _, plain_ofOption (fun e => ?_) _, trivial⟩
  rw [Example.report, Plain, plainFields_iff]
  simp only [List.forall_mem_cons, List.not_mem_nil, false_imp_iff, implies_true, and_true]
  exact ⟨trivial, plainFields_iff.2 (Assignment.plain_report _), plain_bools _, trivial, trivial⟩

/-- a row of the table of all assignments is written flat -/
theorem flatAt_enumerate {mask : Nat} {withScenario : Bool} (hn : atoms.Nodup) (hm : mask < 2 ^ atoms.length) :
    (checked (Table.enumerate premises conclusion atoms)).FlatAt withScenario mask
      ((Row.ofMask premises conclusion atoms mask).written atoms withScenario) := by
  have hlt : mask < (Table.enumerate premises conclusion atoms).rows.length := by
    rw [Table.length_enumerate]
    exact (maskCount_eq _).symm ▸ hm
  have hrow : (Table.enumerate premises conclusion atoms).rows[mask] = Row.ofMask premises conclusion atoms mask := by
    simp [Table.rows_enumerate]
  obtain ⟨hlength, hbits⟩ := Table.getElem?_values hlt
  rw [← hrow]
  exact ⟨_, List.getElem?_eq_getElem hlt, Row.flat hn hlength hbits⟩

/-- the counterexamples are the rows of the masks that refute -/
theorem counterexamples_enumerate (premises : List Formula) (conclusion : Formula) (atoms : List String) :
    (Table.enumerate premises conclusion atoms).counterexamples =
      (checked (Table.enumerate premises conclusion atoms)).refutingMasks.map (Row.ofMask premises conclusion atoms) := by
  rw [Table.counterexamples, Table.rows_enumerate, List.filter_map, maskCount_eq, refutingMasks]
  congr 1
  refine List.filter_congr fun mask hm => ?_
  rw [rows, Table.rows_enumerate, List.getElem?_map, maskCount_eq, List.getElem?_range (List.mem_range.1 hm)]
  rfl

end Outcome

namespace Argument

/-- **Rows are flat.** Let a test be checked, of formulas whose variables have any names. The text of its report reads back as
an object in which every row of the table, mask by mask, and every counterexample is an object with as many entries as were
announced, the atoms first: its columns are seen even if an atom has the same name, every other atom is seen with its bit of
the mask, and under any other key there is nothing. -/
theorem flat_of_checked (limits : Limits) (arg : Argument Formula) (h : (test limits arg).status = .checked) :
    ∃ report, Json.read? (test limits arg).report.render = some report ∧ (test limits arg).Flat report := by
  obtain ⟨c, -, heq⟩ := eq_of_checked h
  rw [heq]
  refine ⟨_, read?_render (Outcome.plain_report _), ?_⟩
  have hn : (atoms (arg.premises ++ [c])).Nodup := nodup_atoms _
  constructor
  case truthTable =>
    refine ⟨_, Outcome.field?_truthTable _, ?_⟩
    rw [Table.rows_enumerate, List.map_map, List.forall₂_map_right_iff,
      show maskCount _ = 2 ^ (atoms (arg.premises ++ [c])).length from maskCount_eq _]
    exact List.forall₂_same.2 fun mask hm => Outcome.flatAt_enumerate hn (List.mem_range.1 hm)
  case counterexamples =>
    refine ⟨_, Outcome.field?_counterexamples _, ?_⟩
    rw [Outcome.counterexamples_enumerate, List.map_map, List.forall₂_map_right_iff, List.forall₂_same]
    intro mask hm
    exact Outcome.flatAt_enumerate hn (List.mem_range.1 (List.mem_filter.1 hm).1)

/-- atoms that are called like columns, one of them like one that only counterexamples have -/
def namedLikeColumns : Argument Formula := ⟨[.var "scenario"], some (.var "VALID")⟩

/-- the row that refutes it: the atom `scenario` keeps its bit in the table and gives way in the list of counterexamples -/
theorem flat_of_checked_namedLikeColumns : (test .standard namedLikeColumns).status = .checked ∧
    (∃ report, Json.read? (test .standard namedLikeColumns).report.render = some report ∧
      (test .standard namedLikeColumns).Flat report) ∧
    (test .standard namedLikeColumns).refutingMasks = [2] ∧
    ((test .standard namedLikeColumns).rows[2]?.map fun r => (r.written ["VALID", "scenario"] false).field? "scenario") =
      some (some (.bool true)) ∧
    ((test .standard namedLikeColumns).rows[2]?.map fun r => (r.written ["VALID", "scenario"] true).field? "scenario") =
      some (some (.str "VALID=false, scenario=true")) := by
  have hchecked : (test .standard namedLikeColumns).status = .checked := by decide
  exact ⟨hchecked, flat_of_checked .standard namedLikeColumns hchecked, by decide, rfl, rfl⟩

end Argument

end Sequitur
