/-
Assignments of atoms.

An assignment names some atoms in ascending order, each with its value. It is the part of an interpretation that can be
written out: `Assignment.under` writes out an interpretation, and every assignment is written out that way. A formula over the
atoms is evaluated under it to its classical truth value. Its mask is the number that it has in the enumeration, bit `i` being
the value of atom `i`.

- `Formula.eval_under`: evaluation under a written assignment never fails and gives the classical truth value;
- `Row.assignment_under`: the assignment of a row names exactly the atoms, in their order;
- `Assignment.mask_under`: the mask of a written assignment is the number of the interpretation.
-/
import Mathlib
import Sequitur.Proofs.Masks

namespace Sequitur

/-- the values of an interpretation, written out -/
def Assignment.under (atoms : List String) (v : String → Bool) : Assignment := atoms.map fun a => (a, v a)

/-- the number of an assignment: bit `i` is its value at place `i` -/
def Assignment.mask (s : Assignment) : Nat := Nat.ofBits fun i : Fin s.length => s[i].2

namespace Assignment

variable {atoms : List String} {v : String → Bool} {s : Assignment} {a : String} {b : Bool}

theorem names_under : (under atoms v).map Prod.fst = atoms := by
  simp [under, Function.comp_def]

theorem value?_under (ha : a ∈ atoms) : (under atoms v).value? a = some (v a) := by
  induction atoms with
  | nil => cases ha
  | cons b atoms ih =>
    rw [under, List.map_cons, value?_cons]
    split
    · rename_i hab
      rw [hab]
    · rename_i hab
      exact ih ((List.mem_cons.1 ha).resolve_left hab)

/-- an assignment is that of its own values -/
theorem exists_eq_under (hn : (s.map Prod.fst).Nodup) : ∃ v, s = under (s.map Prod.fst) v := by
  induction s with
  | nil => exact ⟨fun _ => false, rfl⟩
  | cons p s ih =>
    obtain ⟨a, b⟩ := p
    obtain ⟨ha, hs⟩ := List.nodup_cons.1 hn
    obtain ⟨v, hv⟩ := ih hs
    refine ⟨Function.update v a b, ?_⟩
    have hrest : under (s.map Prod.fst) (Function.update v a b) = under (s.map Prod.fst) v := by
      refine List.map_congr_left fun c hc => ?_
      have hca : c ≠ a := fun h => ha (h ▸ hc)
      rw [Function.update_of_ne hca]
    calc (a, b) :: s = (a, b) :: under (s.map Prod.fst) v := by rw [← hv]
      _ = (a, b) :: under (s.map Prod.fst) (Function.update v a b) := by rw [hrest]
      _ = under (((a, b) :: s).map Prod.fst) (Function.update v a b) := by simp [under]

/-! ## In ascending order -/

/-- a name above all others comes last -/
theorem put_of_above (h : ∀ p ∈ s, p.1 < a) : put a b s = s ++ [(a, b)] := by
  induction s with
  | nil => rfl
  | cons p s ih =>
    have hlt : p.1 < a := h p List.mem_cons_self
    have hne : a ≠ p.1 := fun heq => String.lt_irrefl a (heq ▸ hlt)
    have hge : ¬ a < p.1 := fun hgt => String.lt_irrefl a (String.lt_trans hgt hlt)
    rw [put, if_neg hne, if_neg hge, ih fun q hq => h q (List.mem_cons_of_mem _ hq), List.cons_append]

/-- names that ascend already stay as they are -/
theorem ofList_of_ascending (h : (s.map Prod.fst).Pairwise (· < ·)) : ofList s = s := by
  have hfold : ∀ before : Assignment, (before ++ s |>.map Prod.fst).Pairwise (· < ·) →
      s.foldl (fun acc p => put p.1 p.2 acc) before = before ++ s := by
    clear h
    induction s with
    | nil => intro before _; simp
    | cons p s ih =>
      intro before h
      have habove : ∀ q ∈ before, q.1 < p.1 := by
        rw [List.map_append, List.pairwise_append] at h
        exact fun q hq => h.2.2 q.1 (List.mem_map_of_mem hq) p.1 (by simp)
      rw [List.foldl_cons, put_of_above habove, ih (before ++ [p]) (by simpa using h)]
      simp
  exact hfold [] (by simpa using h)

/-! ## Their numbers -/

/-- the number of an assignment is that of the interpretation that it writes out -/
theorem mask_under : (under atoms v).mask = maskOf atoms v := by
  have hl : (under atoms v).length = atoms.length := by simp [under]
  apply eq_maskOf
  · rw [maskCount_eq, ← hl]
    exact Nat.ofBits_lt_two_pow _
  · intro i hi
    rw [mask, Nat.testBit_ofBits_lt _ i (hl ▸ hi)]
    simp [under]

end Assignment

/-- under a written assignment a formula over its atoms has its classical truth value -/
theorem Formula.eval_under {f : Formula} {atoms : List String} {v : String → Bool} (h : ∀ a ∈ f.occurrences, a ∈ atoms) :
    f.eval (Assignment.under atoms v).value? = .ok (f.truth v) :=
  eval_eq_truth fun a ha => Assignment.value?_under (h a ha)

section

variable {premises : List Formula} {conclusion : Formula} {atoms : List String} {v : String → Bool}

theorem Table.zip_values_under :
    atoms.zip (Row.under premises conclusion atoms v).values = Assignment.under atoms v := by
  simpa [Row.under, Assignment.under] using List.zip_map' (f := id) (g := v) (l := atoms)

/-- the assignment of a row writes out the interpretation of that row -/
theorem Row.assignment_under (hasc : atoms.Pairwise (· < ·)) :
    (Row.under premises conclusion atoms v).assignment atoms = Assignment.under atoms v := by
  rw [assignment, Table.zip_values_under]
  apply Assignment.ofList_of_ascending
  rw [Assignment.names_under]
  exact hasc

end

end Sequitur
