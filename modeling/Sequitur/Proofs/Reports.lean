/-
Reports lose nothing.

The report of an outcome leaves much of it out: of an error there are only its words and its position, the limits are in a
sentence only, and a row is a flat object where atoms may have the names of the columns. But outcomes come from tests. An
error is the one that its source is refused with, a row has a value for every atom, so that the columns begin behind as many
entries as there are atoms, and the sentence has the numbers in it. So what was tested can differ, but two outcomes with one
report are the same, and so are two with one text.

- `Outcome.Reached`: the outcomes that there are, of texts and of formulas;
- `Row.fields_inj`: a row is read off its fields, whatever the atoms are called;
- `Outcome.report_inj`: an outcome is read off its report;
- `Outcome.render_report_eq_iff`: and off its text.
-/
import Mathlib
import Sequitur.Archive.RoundTrip
import Sequitur.Outcome.Report
import Sequitur.Proofs.Ladder
import Sequitur.Proofs.Readable

namespace Sequitur

/-! ## Parts of reports -/

namespace Json

theorem strs_inj {l m : List String} (h : strs l = strs m) : l = m :=
  List.map_injective_iff.2 (fun _ _ h => str.inj h) (arr.inj h)

theorem bools_inj {l m : List Bool} (h : bools l = bools m) : l = m :=
  List.map_injective_iff.2 (fun _ _ h => bool.inj h) (arr.inj h)

theorem definite_map {α : Type} {f : α → Json} (hf : ∀ a, Definite (f a)) (l : List α) : Definite (arr (l.map f)) := by
  refine .arr ?_
  intro v hv
  obtain ⟨a, -, rfl⟩ := List.mem_map.1 hv
  exact hf a

theorem definite_strs (l : List String) : Definite (strs l) := definite_map .str l

theorem definite_bools (l : List Bool) : Definite (bools l) := definite_map .bool l

theorem definite_ofOption {α : Type} {f : α → Json} (hf : ∀ a, Definite (f a)) (o : Option α) :
    Definite (ofOption f o) := by
  cases o with
  | none => exact .null
  | some a => exact hf a

end Json

open Json

theorem Assignment.report_inj {s t : List (String × Bool)} (h : Assignment.report s = Assignment.report t) : s = t := by
  refine List.map_injective_iff.2 ?_ h
  intro p q hpq
  obtain ⟨hname, hvalue⟩ := Prod.mk.inj hpq
  exact Prod.ext hname (bool.inj hvalue)

namespace Row

variable {atoms : List String} {r r' : Row}

/-- a row is read off its fields: its columns stand behind as many entries as there are atoms -/
theorem fields_inj (hr : r.values.length = atoms.length) (hr' : r'.values.length = atoms.length)
    (h : r.fields atoms = r'.fields atoms) : r = r' := by
  have hlength : ∀ q : Row, q.values.length = atoms.length →
      (Assignment.report (atoms.zip q.values)).length = atoms.length := by
    intro q hq
    rw [Assignment.report, List.length_map, List.length_zip, hq, Nat.min_self]
  obtain ⟨hentries, hcolumns⟩ := List.append_inj h ((hlength r hr).trans (hlength r' hr').symm)
  have hvalues : r.values = r'.values := by
    have hzip := Assignment.report_inj hentries
    rw [← List.map_snd_zip hr.le, hzip, List.map_snd_zip hr'.le]
  simp only [List.cons.injEq, Prod.mk.injEq, true_and, and_true] at hcolumns
  obtain ⟨hpremises, hconclusion, -⟩ := hcolumns
  obtain ⟨values, premises, conclusion⟩ := r
  obtain ⟨values', premises', conclusion'⟩ := r'
  rw [Row.mk.injEq]
  exact ⟨hvalues, bools_inj hpremises, bool.inj hconclusion⟩

end Row

theorem Role.report_inj {ρ σ : Role} (h : ρ.report = σ.report) : ρ = σ := by
  cases ρ with
  | premise i =>
    cases σ with
    | premise j =>
      have hindex : Json.nat i = .nat j := (Prod.mk.inj (List.cons.inj (obj.inj h)).1).2
      rw [nat.inj hindex]
    | conclusion => cases h
  | conclusion =>
    cases σ with
    | premise j => cases h
    | conclusion => rfl

/-! ## Nothing foreign -/

theorem Assignment.definite_report (s : List (String × Bool)) : ∀ f ∈ Assignment.report s, Definite f.2 := by
  intro f hf
  obtain ⟨p, -, rfl⟩ := List.mem_map.1 hf
  exact .bool p.2

theorem Row.definite_fields (atoms : List String) (r : Row) : ∀ f ∈ r.fields atoms, Definite f.2 := by
  refine List.forall_mem_append.2 ⟨Assignment.definite_report _, ?_⟩
  simp only [List.forall_mem_cons, List.not_mem_nil, false_imp_iff, implies_true, and_true]
  exact ⟨definite_bools _, .bool _, .bool _, .bool _⟩

theorem Example.definite_report (e : Example) : Definite e.report := by
  refine .obj ?_
  simp only [List.forall_mem_cons, List.not_mem_nil, false_imp_iff, implies_true, and_true]
  exact ⟨.str _, .obj (Assignment.definite_report _), definite_bools _, .bool _, .str _⟩

theorem Role.definite_report (ρ : Role) : Definite ρ.report := by
  cases ρ with
  | premise i => exact .obj (List.forall_mem_singleton.2 (.nat i))
  | conclusion => exact .str _

theorem Fault.definite_report (f : Fault) : Definite f.report := by
  refine .obj ?_
  simp only [List.forall_mem_cons, List.not_mem_nil, false_imp_iff, implies_true, and_true]
  exact ⟨f.role.definite_report, .str _, .str _, definite_ofOption .nat _⟩

namespace Outcome

/-- the outcome of a test -/
inductive Reached : Outcome → Prop where
  | texts (limits : Limits) (arg : Argument String) : Reached (arg.check limits)
  | formulas (limits : Limits) (arg : Argument Formula) : Reached (arg.test limits)

variable {o o' : Outcome}

/-- a fault names the error that its source is refused with -/
theorem Reached.parse_source (h : o.Reached) : ∀ fault ∈ o.fault?, Formula.parse fault.source = .error fault.error := by
  intro fault hfault
  cases h with
  | texts limits arg =>
    obtain ⟨-, c, -, hfirst⟩ := Argument.fault_check_iff.1 hfault
    cases hfirst with
    | premise _ _ he => exact he
    | conclusion _ he => exact he
  | formulas limits arg =>
    have hmalformed := (Argument.ladder_test limits arg).isSome_fault_iff.1 (hfault ▸ rfl)
    have hstops := (((Argument.ladder_test limits arg).status_eq_iff _).1 hmalformed).1
    exact absurd hstops (Argument.readsAs_self arg).not_stops_malformed

/-- a table is the one of all assignments -/
theorem Reached.exists_enumerate (h : o.Reached) (hs : o.status = .checked) :
    ∃ premises conclusion atoms, o = .checked (Table.enumerate premises conclusion atoms) := by
  cases h with
  | texts limits arg =>
    obtain ⟨formulas, c, -, -, heq⟩ := Argument.exists_of_checked hs
    exact ⟨_, _, _, heq⟩
  | formulas limits arg =>
    obtain ⟨c, -, heq⟩ := Argument.eq_of_checked hs
    exact ⟨_, _, _, heq⟩

/-- so every row has a value for every atom -/
theorem Reached.length_values {t : Table} (h : Reached (.checked t)) : ∀ r ∈ t.rows, r.values.length = t.atoms.length := by
  intro r hr
  obtain ⟨premises, conclusion, atoms, heq⟩ := h.exists_enumerate rfl
  rw [Outcome.checked.inj heq] at hr ⊢
  rw [Table.rows_enumerate] at hr
  obtain ⟨mask, -, rfl⟩ := List.mem_map.1 hr
  rw [Row.ofMask, List.length_map, List.length_range, Table.atoms_enumerate]

/-- both numbers are in the sentence -/
theorem tooManyAtoms_inj {count count' limit limit' : Nat}
    (h : (tooManyAtoms count limit).explanation = (tooManyAtoms count' limit').explanation) :
    count = count' ∧ limit = limit' := by
  have hdigits (n : Nat) : (toString n).toList = Nat.toDigits 10 n := String.toList_ofList
  have hwords : " distinct atoms exceed the enumeration limit of ".toList =
      ' ' :: "distinct atoms exceed the enumeration limit of ".toList := rfl
  have hchars := congrArg String.toList h
  simp only [explanation, String.toList_append, hdigits, hwords, List.append_assoc, List.cons_append] at hchars
  -- the sentence starts with the one number and a blank, and ends with the other
  obtain ⟨hcount, hrest⟩ := eq_of_append_mark (not_mem_toDigits_decimal rfl count) (not_mem_toDigits_decimal rfl count') hchars
  exact ⟨toDigits_decimal_inj hcount, toDigits_decimal_inj (List.append_cancel_left hrest)⟩

/-! ## Reports -/

/-- rows are read off one by one -/
theorem rows_inj {atoms : List String} {rows rows' : List Row} (hr : ∀ r ∈ rows, r.values.length = atoms.length)
    (hr' : ∀ r ∈ rows', r.values.length = atoms.length)
    (h : rows.map (fun r => Json.obj (r.fields atoms)) = rows'.map fun r => .obj (r.fields atoms)) : rows = rows' := by
  induction rows generalizing rows' with
  | nil => exact (List.map_eq_nil_iff.1 h.symm).symm
  | cons r rows ih =>
    cases rows' with
    | nil => cases h
    | cons r' rows' =>
      obtain ⟨hfields, hrest⟩ := List.cons.inj h
      obtain ⟨hlength, hrows⟩ := List.forall_mem_cons.1 hr
      obtain ⟨hlength', hrows'⟩ := List.forall_mem_cons.1 hr'
      rw [Row.fields_inj hlength hlength' (obj.inj hfields), ih hrows hrows' hrest]

/-- a table is read off its atoms and the fields of its rows -/
theorem table_inj {t t' : Table} (h : Reached (.checked t)) (h' : Reached (.checked t')) (hatoms : t.atoms = t'.atoms)
    (hrows : t.rows.map (fun r => Json.obj (r.fields t.atoms)) = t'.rows.map fun r => .obj (r.fields t'.atoms)) : t = t' := by
  obtain ⟨atoms, rows⟩ := t
  obtain ⟨atoms', rows'⟩ := t'
  obtain rfl : atoms = atoms' := hatoms
  have hrows' : rows = rows' := rows_inj h.length_values h'.length_values hrows
  rw [hrows']

/-- the same source with the same role is refused with the same error -/
theorem fault_inj {fault fault' : Fault} (h : Formula.parse fault.source = .error fault.error)
    (h' : Formula.parse fault'.source = .error fault'.error) (hreport : fault.report = fault'.report) : fault = fault' := by
  have hfields := obj.inj hreport
  simp only [List.cons.injEq, Prod.mk.injEq, true_and] at hfields
  obtain ⟨hrole, hsource, -⟩ := hfields
  have hsource' : fault.source = fault'.source := str.inj hsource
  have herror : fault.error = fault'.error := by
    rw [hsource', h'] at h
    exact (Except.error.inj h).symm
  obtain ⟨role, source, error⟩ := fault
  rw [Fault.mk.injEq]
  exact ⟨Role.report_inj hrole, hsource', herror⟩

/-- an outcome is read off its report -/
theorem report_inj (ho : o.Reached) (ho' : o'.Reached) (h : o.report = o'.report) : o = o' := by
  -- seven fields are always there, so what is behind them is the fault
  obtain ⟨hfields, herror⟩ := List.append_inj (obj.inj h) rfl
  simp only [List.cons.injEq, Prod.mk.injEq, true_and, and_true] at hfields
  obtain ⟨-, hstatus, hatoms, hrows, -, -, hexplanation⟩ := hfields
  have hcode : o.status = o'.status := Status.code_inj (str.inj hstatus)
  cases o with
  | noPremises => cases o' <;> first | rfl | cases hcode
  | noConclusion => cases o' <;> first | rfl | cases hcode
  | malformed fault =>
    cases o' with
    | malformed fault' =>
      have hreport : fault.report = fault'.report := (Prod.mk.inj (List.cons.inj herror).1).2
      rw [fault_inj (ho.parse_source fault rfl) (ho'.parse_source fault' rfl) hreport]
    | _ => cases hcode
  | tooManyAtoms count limit =>
    cases o' with
    | tooManyAtoms count' limit' =>
      obtain ⟨rfl, rfl⟩ := tooManyAtoms_inj (str.inj hexplanation)
      rfl
    | _ => cases hcode
  | checked t =>
    cases o' with
    | checked t' =>
      rw [table_inj ho ho' (strs_inj hatoms) (arr.inj hrows)]
    | _ => cases hcode

/-- nothing in a report is foreign -/
theorem definite_report (o : Outcome) : Definite o.report := by
  have hrow (atoms : List String) (r : Row) : Definite (.obj (r.fields atoms)) := .obj (r.definite_fields atoms)
  have hrefuting (atoms : List String) (r : Row) : Definite (.obj (r.refutingFields atoms)) :=
    .obj (List.forall_mem_append.2 ⟨r.definite_fields atoms, List.forall_mem_singleton.2 (.str _)⟩)
  refine .obj (List.forall_mem_append.2 ⟨?_, ?_⟩)
  · simp only [List.forall_mem_cons, List.not_mem_nil, false_imp_iff, implies_true, and_true]
    exact ⟨.bool _, .str _, definite_strs _, definite_map (hrow _) _, definite_map (hrefuting _) _,
      definite_ofOption Example.definite_report _, .str _⟩
  · intro f hf
    obtain ⟨fault, -, rfl⟩ := Option.mem_map.1 (Option.mem_toList.1 hf)
    exact fault.definite_report

/-- **Reports lose nothing.** Two outcomes of tests, of texts or of formulas and under any limits, whose reports are the same
text are the same outcome: of the same status, with the same atoms, rows, counterexamples, example, explanation and fault.
Atoms may have any names, those of the columns among them. -/
theorem render_report_eq_iff (ho : o.Reached) (ho' : o'.Reached) : o.report.render = o'.report.render ↔ o = o' := by
  refine ⟨?_, fun h => h ▸ rfl⟩
  intro h
  exact report_inj ho ho' (render_inj o.definite_report o'.definite_report h)

/-- atoms that are called like two of the columns -/
def columnNames : Argument Formula := ⟨[.var "premises"], some (.var "VALID")⟩

/-- one argument from them and the argument the other way round have the same atoms, and different texts -/
theorem render_report_eq_iff_columnNames :
    Reached (columnNames.test .standard) ∧ Reached (Argument.test .standard ⟨[.var "VALID"], some (.var "premises")⟩) ∧
      (columnNames.test .standard).atoms = (Argument.test .standard ⟨[.var "VALID"], some (.var "premises")⟩).atoms ∧
      (columnNames.test .standard).report.render ≠
        (Argument.test .standard ⟨[.var "VALID"], some (.var "premises")⟩).report.render := by
  have hthere : Reached (columnNames.test .standard) := .formulas _ _
  have hback : Reached (Argument.test .standard ⟨[.var "VALID"], some (.var "premises")⟩) := .formulas _ _
  refine ⟨hthere, hback, by decide, ?_⟩
  rw [ne_eq, render_report_eq_iff hthere hback]
  decide

end Outcome

end Sequitur
