/-
Names do not matter.

The names of variables tell them apart, and their order is the order of the atoms; a test makes no other use of them. So an
argument may be renamed, as long as no two names become one. The atoms can then come in another order: bits change places, and
with them the rows of the table. What is kept are the assignments that refute the argument, each with its names renamed, and
so their number. Where the names keep their order, no row moves.

- `Assignment.perm_rename`, `Assignment.rename_inj`: renaming an assignment changes its names and their order, nothing else;
- `Table.perm_refuting_rename`: the assignments that refute, renamed, are those that refute the renamed argument;
- `Argument.test_rename`: an argument and the renamed argument are tested alike.
-/
import Mathlib
import Sequitur.Proofs.ByteOrder
import Sequitur.Proofs.LeastCounterexample
import Sequitur.Proofs.Verdicts

namespace Sequitur

/-- a formula with its variables renamed -/
def Formula.rename (ρ : String → String) : Formula → Formula
  | var a => var (ρ a)
  | not f => not (f.rename ρ)
  | bin op l r => bin op (l.rename ρ) (r.rename ρ)

def Argument.rename (ρ : String → String) (arg : Argument Formula) : Argument Formula :=
  ⟨arg.premises.map (Formula.rename ρ), arg.conclusion.map (Formula.rename ρ)⟩

/-- an assignment with its names renamed and put in order again -/
def Assignment.rename (ρ : String → String) (s : Assignment) : Assignment := ofList (s.map fun p => (ρ p.1, p.2))

/-- one of the counterexamples has this assignment -/
def Outcome.Lists (o : Outcome) (s : Assignment) : Prop := ∃ r ∈ o.counterexamples, r.assignment o.atoms = s

/-- what the outcome for a renamed argument has in common with the one for the argument -/
structure Outcome.Renamed (ρ : String → String) (o o' : Outcome) : Prop where
  status : o'.status = o.status
  isValid : o'.isValid = o.isValid
  length_rows : o'.rows.length = o.rows.length
  length_counterexamples : o'.counterexamples.length = o.counterexamples.length
  lists_iff : ∀ s : Assignment, (s.map Prod.fst).Pairwise (· < ·) → (o'.Lists (s.rename ρ) ↔ o.Lists s)

/-! ## Assignments -/

namespace Assignment

variable {s t : Assignment} {pairs : List (String × Bool)} {a x : String} {b : Bool} {ρ : String → String}

theorem mem_names_put : x ∈ (put a b s).map Prod.fst ↔ x = a ∨ x ∈ s.map Prod.fst := by
  induction s with
  | nil => simp [put]
  | cons p s ih =>
    rw [put]
    split
    · rename_i h
      simp [h]
    · split
      · simp
      · rw [List.map_cons, List.mem_cons, ih, List.map_cons, List.mem_cons, or_left_comm]

/-- putting a name in keeps the names in order -/
theorem pairwise_put (h : (s.map Prod.fst).Pairwise (· < ·)) : ((put a b s).map Prod.fst).Pairwise (· < ·) := by
  induction s with
  | nil => exact List.pairwise_singleton _ a
  | cons p s ih =>
    obtain ⟨hbelow, hs⟩ := List.pairwise_cons.1 h
    rw [put]
    split
    · rename_i heq
      rwa [heq]
    · rename_i hne
      split
      · rename_i hlt
        refine List.pairwise_cons.2 ⟨fun x hx => ?_, h⟩
        rcases List.mem_cons.1 hx with rfl | hx
        · exact hlt
        · exact String.lt_trans hlt (hbelow x hx)
      · rename_i hge
        have hlt : p.1 < a := Std.lt_of_le_of_ne (String.not_lt.1 hge) (Ne.symm hne)
        refine List.pairwise_cons.2 ⟨fun x hx => ?_, ih hs⟩
        rcases mem_names_put.1 hx with rfl | hx
        · exact hlt
        · exact hbelow x hx

theorem perm_put (h : a ∉ s.map Prod.fst) : (put a b s).Perm ((a, b) :: s) := by
  induction s with
  | nil => exact .refl _
  | cons p s ih =>
    rw [List.map_cons, List.mem_cons, not_or] at h
    rw [put, if_neg h.1]
    split
    · exact .refl _
    · exact ((ih h.2).cons p).trans (.swap (a, b) p s)

theorem pairwise_ofList (pairs : List (String × Bool)) : ((ofList pairs).map Prod.fst).Pairwise (· < ·) := by
  have hfold : ∀ before : Assignment, (before.map Prod.fst).Pairwise (· < ·) →
      ((pairs.foldl (fun acc p => put p.1 p.2 acc) before).map Prod.fst).Pairwise (· < ·) := by
    induction pairs with
    | nil => exact fun _ h => h
    | cons p pairs ih => exact fun _ h => ih _ (pairwise_put h)
  exact hfold [] .nil

/-- pairs of different names are only put in order -/
theorem perm_ofList (h : (pairs.map Prod.fst).Nodup) : (ofList pairs).Perm pairs := by
  have hfold : ∀ before : Assignment, ((before ++ pairs).map Prod.fst).Nodup →
      (pairs.foldl (fun acc p => put p.1 p.2 acc) before).Perm (before ++ pairs) := by
    clear h
    induction pairs with
    | nil =>
      intro before _
      rw [List.append_nil]
      exact .refl _
    | cons p pairs ih =>
      intro before h
      have hnew : p.1 ∉ before.map Prod.fst := by
        rw [List.map_append, List.nodup_append] at h
        exact fun hp => h.2.2 p.1 hp p.1 (by simp) rfl
      have hput : (put p.1 p.2 before ++ pairs).Perm (before ++ p :: pairs) :=
        ((perm_put hnew).append_right pairs).trans List.perm_middle.symm
      exact (ih _ ((hput.map Prod.fst).nodup_iff.2 h)).trans hput
  exact hfold [] h

/-- assignments of the same pairs are the same, for the names are in order -/
theorem eq_of_perm (hs : (s.map Prod.fst).Pairwise (· < ·)) (ht : (t.map Prod.fst).Pairwise (· < ·)) (h : s.Perm t) :
    s = t := by
  rw [List.pairwise_map] at hs ht
  exact h.eq_of_pairwise (fun p q _ _ hpq hqp => absurd (String.lt_trans hpq hqp) (String.lt_irrefl _)) hs ht

/-! ## Their names renamed -/

theorem perm_rename (hρ : Function.Injective ρ) (h : (s.map Prod.fst).Nodup) :
    (s.rename ρ).Perm (s.map fun p => (ρ p.1, p.2)) := by
  refine perm_ofList ?_
  rw [List.map_map, show Prod.fst ∘ (fun p : String × Bool => (ρ p.1, p.2)) = ρ ∘ Prod.fst from rfl, ← List.map_map]
  exact h.map hρ

/-- assignments are told apart after they have been renamed -/
theorem rename_inj (hρ : Function.Injective ρ) (hs : (s.map Prod.fst).Pairwise (· < ·))
    (ht : (t.map Prod.fst).Pairwise (· < ·)) (h : s.rename ρ = t.rename ρ) : s = t := by
  have hpairs : Function.Injective fun p : String × Bool => (ρ p.1, p.2) := by
    intro p q hpq
    obtain ⟨hname, hvalue⟩ := Prod.mk.inj hpq
    exact Prod.ext (hρ hname) hvalue
  have hperm : (s.map fun p => (ρ p.1, p.2)).Perm (t.map fun p => (ρ p.1, p.2)) :=
    (perm_rename hρ (nodup_of_ascending hs)).symm.trans (h ▸ perm_rename hρ (nodup_of_ascending ht))
  exact eq_of_perm hs ht ((List.map_perm_map_iff hpairs).1 hperm)

/-- an interpretation of the new names, written out, is the one that it is of the old names, renamed -/
theorem rename_under {atoms atoms' : List String} {w : String → Bool} (hρ : Function.Injective ρ) (hn : atoms.Nodup)
    (hasc : atoms'.Pairwise (· < ·)) (hperm : (atoms.map ρ).Perm atoms') :
    (under atoms (w ∘ ρ)).rename ρ = under atoms' w := by
  refine eq_of_perm (pairwise_ofList _) (by rwa [names_under]) ?_
  have hpairs : ((under atoms (w ∘ ρ)).map fun p => (ρ p.1, p.2)) = under (atoms.map ρ) w := by
    simp [under, Function.comp_def]
  have hrename := perm_rename hρ (s := under atoms (w ∘ ρ)) (by rwa [names_under])
  rw [hpairs] at hrename
  exact hrename.trans (hperm.map _)

end Assignment

/-! ## Formulas -/

section

variable {ρ : String → String} {fs premises : List Formula} {conclusion f : Formula} {atoms : List String} {w : String → Bool}
  {b : String}

theorem Formula.occurrences_rename (f : Formula) : (f.rename ρ).occurrences = f.occurrences.map ρ := by
  induction f with
  | var a => rfl
  | not f ih => exact ih
  | bin op l r ihl ihr => rw [rename, occurrences, ihl, ihr, occurrences, List.map_append]

/-- a renamed formula says of the new names what the formula says of the old ones -/
theorem Formula.truth_rename (f : Formula) : (f.rename ρ).truth w = f.truth (w ∘ ρ) := by
  induction f with
  | var a => rfl
  | not f ih => rw [rename, truth_not, ih, truth_not]
  | bin op l r ihl ihr => rw [rename, truth_bin, ihl, ihr, truth_bin]

theorem mem_atoms_rename : b ∈ Sequitur.atoms (fs.map (Formula.rename ρ)) ↔ b ∈ (Sequitur.atoms fs).map ρ := by
  simp only [mem_atoms, List.mem_map, exists_exists_and_eq_and, Formula.occurrences_rename]
  constructor
  · rintro ⟨f, hf, a, ha, rfl⟩
    exact ⟨a, ⟨f, hf, ha⟩, rfl⟩
  · rintro ⟨a, ⟨f, hf, ha⟩, rfl⟩
    exact ⟨f, hf, a, ha, rfl⟩

/-- the new atoms are the old ones renamed, in an order of their own -/
theorem perm_atoms_rename (hρ : Function.Injective ρ) (fs : List Formula) :
    ((Sequitur.atoms fs).map ρ).Perm (Sequitur.atoms (fs.map (Formula.rename ρ))) :=
  (List.perm_ext_iff_of_nodup ((nodup_atoms fs).map hρ) (nodup_atoms _)).2 fun _ => mem_atoms_rename.symm

/-- names that keep their order keep their places -/
theorem atoms_rename_of_ascending (h : ((Sequitur.atoms fs).map ρ).Pairwise (· < ·)) :
    Sequitur.atoms (fs.map (Formula.rename ρ)) = (Sequitur.atoms fs).map ρ :=
  eq_of_ascending (pairwise_atoms _) h fun _ => mem_atoms_rename

/-! ## Tables -/

theorem Row.under_rename : Row.under (premises.map (Formula.rename ρ)) (conclusion.rename ρ) (atoms.map ρ) w =
    Row.under premises conclusion atoms (w ∘ ρ) := by
  simp [Row.under, Function.comp_def, Formula.truth_rename]

theorem maskOf_map : maskOf (atoms.map ρ) w = maskOf atoms (w ∘ ρ) := by
  have hlt : maskOf (atoms.map ρ) w < maskCount atoms.length := by
    have hlt : maskOf (atoms.map ρ) w < maskCount (atoms.map ρ).length := maskOf_lt
    rwa [List.length_map] at hlt
  apply eq_maskOf hlt
  intro i hi
  rw [testBit_maskOf (by rwa [List.length_map]), List.getElem_map, Function.comp_apply]

/-- where the atoms keep their places, so do the rows -/
theorem Table.rows_enumerate_rename (hn : (atoms.map ρ).Nodup) (hc : Covers atoms premises conclusion)
    (hc' : Covers (atoms.map ρ) (premises.map (Formula.rename ρ)) (conclusion.rename ρ)) :
    (enumerate (premises.map (Formula.rename ρ)) (conclusion.rename ρ) (atoms.map ρ)).rows =
      (enumerate premises conclusion atoms).rows := by
  rw [rows_enumerate, rows_enumerate, List.length_map]
  refine List.map_congr_left fun mask hm => ?_
  have hmask : maskOf (atoms.map ρ) (interpretationOf (atoms.map ρ) mask) = mask :=
    maskOf_interpretationOf hn (by rw [List.length_map]; exact List.mem_range.1 hm)
  calc Row.ofMask (premises.map (Formula.rename ρ)) (conclusion.rename ρ) (atoms.map ρ) mask
      = Row.under (premises.map (Formula.rename ρ)) (conclusion.rename ρ) (atoms.map ρ)
          (interpretationOf (atoms.map ρ) mask) := by rw [← Row.ofMask_maskOf hc', hmask]
    _ = Row.under premises conclusion atoms (interpretationOf (atoms.map ρ) mask ∘ ρ) := Row.under_rename
    _ = Row.ofMask premises conclusion atoms mask := by rw [← Row.ofMask_maskOf hc, ← maskOf_map, hmask]

/-- the assignments that refute name the atoms in order -/
theorem Table.ascending_of_mem_refuting (hasc : atoms.Pairwise (· < ·)) (hc : Covers atoms premises conclusion)
    {s : Assignment} (hs : s ∈ (enumerate premises conclusion atoms).refuting) : (s.map Prod.fst).Pairwise (· < ·) := by
  obtain ⟨v, rfl, -⟩ := (mem_refuting_enumerate (nodup_of_ascending hasc) hc).1 hs
  rwa [Assignment.names_under]

/-- the renamed argument is refuted by the renamed assignments -/
theorem Table.perm_refuting_rename (hρ : Function.Injective ρ) (premises : List Formula) (conclusion : Formula) :
    ((enumerate premises conclusion (Sequitur.atoms (premises ++ [conclusion]))).refuting.map (Assignment.rename ρ)).Perm
      (enumerate (premises.map (Formula.rename ρ)) (conclusion.rename ρ)
        (Sequitur.atoms (premises.map (Formula.rename ρ) ++ [conclusion.rename ρ]))).refuting := by
  have hperm := perm_atoms_rename hρ (premises ++ [conclusion])
  rw [List.map_append, List.map_singleton] at hperm
  have hrename (w : String → Bool) := Assignment.rename_under (w := w) hρ (nodup_atoms _) (pairwise_atoms _) hperm
  have hmem {s : Assignment} := mem_refuting_enumerate (s := s) (nodup_atoms _) (covers_atoms premises conclusion)
  have hascending : ∀ s ∈ (enumerate premises conclusion (Sequitur.atoms (premises ++ [conclusion]))).refuting,
      (s.map Prod.fst).Pairwise (· < ·) :=
    fun _ => ascending_of_mem_refuting (pairwise_atoms _) (covers_atoms premises conclusion)
  have hnodup : (enumerate premises conclusion (Sequitur.atoms (premises ++ [conclusion]))).refuting.Nodup :=
    nodup_refuting_enumerate
  refine (List.perm_ext_iff_of_nodup (hnodup.map_on fun s hs t ht h => ?_) nodup_refuting_enumerate).2 fun s => ?_
  · exact Assignment.rename_inj hρ (hascending s hs) (hascending t ht) h
  · rw [List.mem_map, mem_refuting_enumerate (nodup_atoms _) (covers_atoms _ _)]
    constructor
    · rintro ⟨t, ht, rfl⟩
      obtain ⟨v, rfl, htrue, hfalse⟩ := hmem.1 ht
      -- the old interpretation, as one of the new names
      have hv : v = Function.extend ρ v (fun _ => false) ∘ ρ := (Function.extend_comp hρ v _).symm
      refine ⟨Function.extend ρ v fun _ => false, ?_, ?_, ?_⟩
      · rw [← hrename, ← hv]
      · rw [List.forall_mem_map]
        exact fun p hp => by rw [Formula.truth_rename, ← hv, htrue p hp]
      · rw [Formula.truth_rename, ← hv, hfalse]
    · rintro ⟨w, rfl, htrue, hfalse⟩
      rw [List.forall_mem_map] at htrue
      refine ⟨Assignment.under _ (w ∘ ρ), hmem.2 ⟨w ∘ ρ, rfl, fun p hp => ?_, ?_⟩, hrename w⟩
      · rw [← Formula.truth_rename, htrue p hp]
      · rw [← Formula.truth_rename, hfalse]

/-- the counterexamples of a table show the assignments that refute -/
theorem Table.lists_iff_mem_refuting (hasc : atoms.Pairwise (· < ·)) (hc : Covers atoms premises conclusion) {s : Assignment} :
    (Outcome.checked (enumerate premises conclusion atoms)).Lists s ↔ s ∈ (enumerate premises conclusion atoms).refuting := by
  have hn : atoms.Nodup := nodup_of_ascending hasc
  rw [refuting, List.mem_map]
  refine exists_congr fun r => and_congr_right fun hr => ?_
  obtain ⟨v, rfl, -⟩ := (mem_counterexamples_enumerate hn hc).1 hr
  change (Row.under premises conclusion atoms v).assignment atoms = s ↔ atoms.zip _ = s
  rw [Row.assignment_under hasc, zip_values_under]

end

/-! ## Tests -/

namespace Outcome

variable {ρ : String → String} {o : Outcome}

/-- without counterexamples there is nothing to rename -/
theorem renamed_of_no_counterexamples (h : o.counterexamples = []) : o.Renamed ρ o := by
  constructor
  case lists_iff =>
    intro s _
    simp [Lists, h]
  all_goals rfl

end Outcome

namespace Argument

variable {ρ : String → String}

theorem rename_some (premises : List Formula) (conclusion : Formula) :
    rename ρ ⟨premises, some conclusion⟩ = ⟨premises.map (Formula.rename ρ), some (conclusion.rename ρ)⟩ := rfl

/-- the tables of an argument and of the renamed argument list the same assignments -/
theorem renamed_enumerate (hρ : Function.Injective ρ) (premises : List Formula) (conclusion : Formula) :
    (Outcome.checked (Table.enumerate premises conclusion (Sequitur.atoms (premises ++ [conclusion])))).Renamed ρ
      (.checked (Table.enumerate (premises.map (Formula.rename ρ)) (conclusion.rename ρ)
        (Sequitur.atoms (premises.map (Formula.rename ρ) ++ [conclusion.rename ρ])))) := by
  have hperm := Table.perm_refuting_rename hρ premises conclusion
  have hatoms := (perm_atoms_rename hρ (premises ++ [conclusion])).length_eq
  rw [List.map_append, List.map_singleton, List.length_map] at hatoms
  have hlength := hperm.length_eq
  rw [List.length_map, Table.refuting, Table.refuting, List.length_map, List.length_map] at hlength
  constructor
  case status => rfl
  case isValid => exact Outcome.isValid_checked_congr hlength.symm
  case length_rows =>
    change List.length (Table.rows _) = List.length (Table.rows _)
    rw [Table.length_enumerate, Table.length_enumerate, hatoms]
  case length_counterexamples => exact hlength.symm
  case lists_iff =>
    intro s hs
    rw [Table.lists_iff_mem_refuting (pairwise_atoms _) (covers_atoms _ _),
      Table.lists_iff_mem_refuting (pairwise_atoms _) (covers_atoms _ _), ← hperm.mem_iff, List.mem_map]
    constructor
    · rintro ⟨t, ht, heq⟩
      have htasc := Table.ascending_of_mem_refuting (pairwise_atoms _) (covers_atoms _ _) ht
      rwa [← Assignment.rename_inj hρ htasc hs heq]
    · exact fun h => ⟨s, h, rfl⟩

theorem mem_names_some {premises : List Formula} {conclusion : Formula} {a : String} :
    a ∈ names ⟨premises, some conclusion⟩ ↔ a ∈ Sequitur.atoms (premises ++ [conclusion]) := by
  simp [names, parts, mem_atoms]

/-- names that stay in order leave every row where it is -/
theorem rows_enumerate_of_ascending {premises : List Formula} {conclusion : Formula}
    (h : ∀ a ∈ names ⟨premises, some conclusion⟩, ∀ b ∈ names ⟨premises, some conclusion⟩,
      utf8 a < utf8 b → utf8 (ρ a) < utf8 (ρ b)) :
    (Table.enumerate (premises.map (Formula.rename ρ)) (conclusion.rename ρ)
      (Sequitur.atoms (premises.map (Formula.rename ρ) ++ [conclusion.rename ρ]))).rows =
    (Table.enumerate premises conclusion (Sequitur.atoms (premises ++ [conclusion]))).rows := by
  have hasc : ((Sequitur.atoms (premises ++ [conclusion])).map ρ).Pairwise (· < ·) := by
    rw [List.pairwise_map]
    refine (pairwise_atoms _).imp_of_mem fun ha hb hlt => ?_
    exact utf8_lt_iff.1 (h _ (mem_names_some.2 ha) _ (mem_names_some.2 hb) (utf8_lt_iff.2 hlt))
  have hatoms := atoms_rename_of_ascending hasc
  rw [List.map_append, List.map_singleton] at hatoms
  have hcov := covers_atoms (premises.map (Formula.rename ρ)) (conclusion.rename ρ)
  rw [hatoms] at hcov ⊢
  exact Table.rows_enumerate_rename (nodup_of_ascending hasc) (covers_atoms premises conclusion) hcov

/-- **Names do not matter.** Let the variables of an argument be renamed by any renaming that makes no two names one. Under any
limits the renamed argument has the same status, the same verdict, as many rows and as many counterexamples; and an assignment
is that of a counterexample exactly if the renamed assignment is one for the renamed argument. Where the renaming keeps the
names that occur in the order of their bytes, the rows and the counterexamples are the same one by one. -/
theorem test_rename (limits : Limits) (arg : Argument Formula) (ρ : String → String) (hρ : Function.Injective ρ) :
    (test limits arg).Renamed ρ (test limits (arg.rename ρ)) ∧
      ((∀ a ∈ arg.names, ∀ b ∈ arg.names, utf8 a < utf8 b → utf8 (ρ a) < utf8 (ρ b)) →
        (test limits (arg.rename ρ)).rows = (test limits arg).rows ∧
          (test limits (arg.rename ρ)).counterexamples = (test limits arg).counterexamples) := by
  obtain ⟨premises, conclusion⟩ := arg
  cases premises with
  | nil => exact ⟨Outcome.renamed_of_no_counterexamples rfl, fun _ => ⟨rfl, rfl⟩⟩
  | cons p ps =>
    cases conclusion with
    | none => exact ⟨Outcome.renamed_of_no_counterexamples rfl, fun _ => ⟨rfl, rfl⟩⟩
    | some c =>
      have hne : p :: ps ≠ [] := List.cons_ne_nil p ps
      have hne' : (p :: ps).map (Formula.rename ρ) ≠ [] := List.cons_ne_nil _ _
      have hlength := (perm_atoms_rename hρ (p :: ps ++ [c])).length_eq
      rw [List.length_map, List.map_append, List.map_singleton] at hlength
      rw [rename_some]
      by_cases hle : (Sequitur.atoms (p :: ps ++ [c])).length ≤ limits.atomLimit
      · rw [test_eq_checked hne hle, test_eq_checked hne' (hlength ▸ hle)]
        refine ⟨renamed_enumerate hρ (p :: ps) c, fun h => ?_⟩
        have hrows := rows_enumerate_of_ascending h
        exact ⟨hrows, congrArg (List.filter Row.isCounterexample) hrows⟩
      · have hlt := Nat.not_le.1 hle
        rw [test_eq_tooManyAtoms hne hlt, test_eq_tooManyAtoms hne' (hlength ▸ hlt), ← hlength]
        exact ⟨Outcome.renamed_of_no_counterexamples rfl, fun _ => ⟨rfl, rfl⟩⟩

/-- exchanging two names exchanges their bits; a letter before all names moves no row -/
theorem test_rename_exchanged : Function.Injective (Equiv.swap "P" "Q") ∧
    (test .standard affirmingTheConsequent).Renamed (Equiv.swap "P" "Q")
      (test .standard (affirmingTheConsequent.rename (Equiv.swap "P" "Q"))) ∧
    (test .standard (affirmingTheConsequent.rename (Equiv.swap "P" "Q"))).rows ≠ (test .standard affirmingTheConsequent).rows ∧
    Function.Injective ("x" ++ ·) ∧
    (∀ a ∈ affirmingTheConsequent.names, ∀ b ∈ affirmingTheConsequent.names, utf8 a < utf8 b → utf8 ("x" ++ a) < utf8 ("x" ++ b)) ∧
    (test .standard (affirmingTheConsequent.rename ("x" ++ ·))).rows = (test .standard affirmingTheConsequent).rows := by
  have hswap : Function.Injective (Equiv.swap "P" "Q") := Equiv.injective _
  have hletter : Function.Injective ("x" ++ · : String → String) := fun _ _ h => String.append_right_inj "x" |>.1 h
  have horder : ∀ a ∈ affirmingTheConsequent.names, ∀ b ∈ affirmingTheConsequent.names,
      utf8 a < utf8 b → utf8 ("x" ++ a) < utf8 ("x" ++ b) := by
    simp only [utf8_lt_iff]
    decide
  refine ⟨hswap, (test_rename .standard affirmingTheConsequent _ hswap).1, by decide, hletter, horder, ?_⟩
  exact ((test_rename .standard affirmingTheConsequent _ hletter).2 horder).1

end Argument

end Sequitur
