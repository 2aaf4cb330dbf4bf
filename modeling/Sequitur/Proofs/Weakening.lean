/-
More premises.

Premises that are added leave fewer assignments to refute an argument, but they may bring new atoms. The table is then another
one: the new names stand among the old ones, so that bits and rows are counted differently. What both tables have in common
are the interpretations that their rows belong to. A counterexample in the longer table is one of an interpretation; the
shorter table has a row of the same interpretation, and its assignment is what is left when the new names are taken out.

- `Assignment.restrict_under`: taking names out of an assignment leaves what the interpretation says of the others;
- `Argument.checked_of_subset`: with fewer premises there are no more atoms, so a test still runs to the end;
- `Argument.weakening`: counterexamples of the longer argument, restricted, are counterexamples of the shorter one.
-/
import Mathlib
import Sequitur.Proofs.Assignments
import Sequitur.Proofs.Entailment

namespace Sequitur

/-- what an assignment says of the variables of some formulas -/
def Assignment.restrict (s : Assignment) (fs : List Formula) : Assignment :=
  s.filter fun p => fs.any fun f => f.occurrences.contains p.1

/-- each counterexample of an outcome is one of the other, as far as the variables of some formulas go -/
def Outcome.RefutesWithin (o : Outcome) (fs : List Formula) (o' : Outcome) : Prop :=
  ∀ r ∈ o.counterexamples, ∃ r' ∈ o'.counterexamples, r'.assignment o'.atoms = (r.assignment o.atoms).restrict fs

section

variable {fs gs premises more : List Formula} {v : String → Bool}

/-! ## Fewer formulas, fewer atoms -/

theorem atoms_subset (h : fs ⊆ gs) : atoms fs ⊆ atoms gs := by
  intro a ha
  obtain ⟨f, hf, hfa⟩ := mem_atoms.1 ha
  exact mem_atoms.2 ⟨f, h hf, hfa⟩

theorem length_atoms_le (h : fs ⊆ gs) : (atoms fs).length ≤ (atoms gs).length :=
  ((nodup_atoms fs).subperm (atoms_subset h)).length_le

/-- the atoms of some formulas are those of more formulas that occur in them, in the same order -/
theorem filter_atoms (h : fs ⊆ gs) : ((atoms gs).filter fun a => fs.any fun f => f.occurrences.contains a) = atoms fs := by
  refine eq_of_ascending ((pairwise_atoms gs).filter _) (pairwise_atoms fs) fun a => ?_
  have hoccurs : (fs.any fun f => f.occurrences.contains a) = true ↔ a ∈ atoms fs := by
    simp [mem_atoms]
  rw [List.mem_filter, hoccurs]
  exact ⟨fun ha => ha.2, fun ha => ⟨atoms_subset h ha, ha⟩⟩

theorem append_conclusion_subset (h : premises ⊆ more) (conclusion : Formula) :
    premises ++ [conclusion] ⊆ more ++ [conclusion] := by
  intro f hf
  rcases List.mem_append.1 hf with hp | hc
  · exact List.mem_append_left _ (h hp)
  · exact List.mem_append_right _ hc

/-! ## Assignments without some of their names -/

/-- what is left of an interpretation that was written out over more atoms -/
theorem Assignment.restrict_under (h : fs ⊆ gs) :
    (under (atoms gs) v).restrict fs = under (atoms fs) v := by
  rw [restrict, under, List.filter_map, under]
  exact congrArg _ (filter_atoms h)

end

namespace Argument

variable {limits : Limits} {premises more : List Formula} {conclusion : Formula}

/-- with some of the premises of a checked argument a test is checked as well -/
theorem checked_of_subset (hne : premises ≠ []) (hsub : premises ⊆ more)
    (h : (test limits ⟨more, some conclusion⟩).status = .checked) :
    (test limits ⟨premises, some conclusion⟩).status = .checked := by
  obtain ⟨-, hle⟩ := test_checked_iff.1 h
  have hatoms := length_atoms_le (append_conclusion_subset hsub conclusion)
  exact test_checked_iff.2 ⟨hne, hatoms.trans hle⟩

/-- an interpretation that refutes an argument refutes it with some of its premises, and has a row in both tables -/
theorem refutesWithin_of_subset (hne : premises ≠ []) (hsub : premises ⊆ more)
    (h : (test limits ⟨more, some conclusion⟩).status = .checked) :
    (test limits ⟨more, some conclusion⟩).RefutesWithin (premises ++ [conclusion])
      (test limits ⟨premises, some conclusion⟩) := by
  obtain ⟨hne', hle'⟩ := test_checked_iff.1 h
  obtain ⟨-, hle⟩ := test_checked_iff.1 (checked_of_subset hne hsub h)
  rw [test_eq_checked hne hle, test_eq_checked hne' hle']
  intro r hr
  obtain ⟨v, rfl, htrue, hfalse⟩ :=
    (Table.mem_counterexamples_enumerate (nodup_atoms _) (covers_atoms more conclusion)).1 hr
  refine ⟨Row.under premises conclusion (atoms (premises ++ [conclusion])) v, ?_, ?_⟩
  · refine (Table.mem_counterexamples_enumerate (nodup_atoms _) (covers_atoms premises conclusion)).2 ⟨v, rfl, ?_, hfalse⟩
    exact fun p hp => htrue p (hsub hp)
  · calc (Row.under premises conclusion (atoms (premises ++ [conclusion])) v).assignment (atoms (premises ++ [conclusion]))
        = Assignment.under (atoms (premises ++ [conclusion])) v := Row.assignment_under (pairwise_atoms _)
      _ = (Assignment.under (atoms (more ++ [conclusion])) v).restrict (premises ++ [conclusion]) :=
        (Assignment.restrict_under (append_conclusion_subset hsub conclusion)).symm
      _ = ((Row.under more conclusion (atoms (more ++ [conclusion])) v).assignment
            (atoms (more ++ [conclusion]))).restrict (premises ++ [conclusion]) := by
        rw [Row.assignment_under (pairwise_atoms _)]

/-- **Weakening.** Let premises be added to an argument, and let the longer argument be checked. Then the shorter one is checked
too. Each counterexample of the longer argument, with the names taken out that the shorter one does not have, is the
assignment of a counterexample of the shorter one. So an argument that is valid stays valid. -/
theorem weakening (limits : Limits) (premises more : List Formula) (conclusion : Formula) (hne : premises ≠ [])
    (h : (test limits ⟨premises ++ more, some conclusion⟩).status = .checked) :
    (test limits ⟨premises, some conclusion⟩).status = .checked ∧
      (test limits ⟨premises ++ more, some conclusion⟩).RefutesWithin (premises ++ [conclusion])
        (test limits ⟨premises, some conclusion⟩) ∧
      ((test limits ⟨premises, some conclusion⟩).isValid = true →
        (test limits ⟨premises ++ more, some conclusion⟩).isValid = true) := by
  have hsub : premises ⊆ premises ++ more := List.subset_append_left premises more
  have hchecked := checked_of_subset hne hsub h
  have hwithin := refutesWithin_of_subset hne hsub h
  refine ⟨hchecked, hwithin, fun hvalid => ?_⟩
  rw [Outcome.isValid_iff hchecked] at hvalid
  rw [Outcome.isValid_iff h]
  refine List.eq_nil_iff_forall_not_mem.2 fun r hr => ?_
  obtain ⟨r', hr', -⟩ := hwithin r hr
  rw [hvalid] at hr'
  cases hr'

/-- the premises of affirming the consequent -/
def conditionalAndConsequent : List Formula := [.bin .impl (.var "P") (.var "Q"), .var "Q"]

/-- a premise with an atom that comes before theirs -/
def alternative : List Formula := [.bin .or (.var "A") (.var "Q")]

/-- both counterexamples of the longer argument come from the one of the shorter -/
theorem weakening_alternative : conditionalAndConsequent ≠ [] ∧
    (test .standard ⟨conditionalAndConsequent ++ alternative, some (.var "P")⟩).status = .checked ∧
    (test .standard ⟨conditionalAndConsequent, some (.var "P")⟩).status = .checked ∧
    (test .standard ⟨conditionalAndConsequent ++ alternative, some (.var "P")⟩).RefutesWithin
      (conditionalAndConsequent ++ [.var "P"]) (test .standard ⟨conditionalAndConsequent, some (.var "P")⟩) ∧
    ((test .standard ⟨conditionalAndConsequent, some (.var "P")⟩).isValid = true →
      (test .standard ⟨conditionalAndConsequent ++ alternative, some (.var "P")⟩).isValid = true) ∧
    (test .standard ⟨conditionalAndConsequent ++ alternative, some (.var "P")⟩).counterexamples.map
        (fun r => r.assignment ["A", "P", "Q"]) =
      [[("A", false), ("P", false), ("Q", true)], [("A", true), ("P", false), ("Q", true)]] := by
  have hne : conditionalAndConsequent ≠ [] := List.cons_ne_nil _ _
  have h : (test .standard ⟨conditionalAndConsequent ++ alternative, some (.var "P")⟩).status = .checked := by decide
  obtain ⟨hchecked, hwithin, hvalid⟩ := weakening .standard conditionalAndConsequent alternative (.var "P") hne h
  exact ⟨hne, h, hchecked, hwithin, hvalid, by decide⟩

end Argument

end Sequitur
