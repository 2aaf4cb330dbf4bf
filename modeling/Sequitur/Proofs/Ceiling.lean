/-
The ceiling on atoms.

A test looks at its limits last: what is missing from an argument, and which of its texts is no formula, is found before, and
the table it ends in shows nothing of the ceiling. So each argument makes one demand, a number of atoms, and comes to one
result that is not a refusal; under a ceiling that meets the demand the test ends in that result, and under a lower one it is
refused (`Argument.Demands`). The ceiling in force is the configured one, up to 24. It rises with the configured one and stays
where it is above 24, and all that limits can change follows from that.

- `Limits.atomLimit_mono` and `Limits.atomLimit_of_le`: the ceiling in force;
- `Argument.exists_demands`: every argument makes a demand;
- `Argument.check_raised`: what raising the ceiling does to a test.
-/
import Sequitur.Proofs.Ladder

namespace Sequitur

namespace Limits

variable {limits limits' : Limits}

theorem atomLimit_mono (h : limits.maxAtoms ≤ limits'.maxAtoms) : limits.atomLimit ≤ limits'.atomLimit :=
  min_le_min_right hardLimit h

theorem atomLimit_of_le (h : 24 ≤ limits.maxAtoms) : limits.atomLimit = 24 := min_eq_right h

end Limits

namespace Argument

variable {arg : Argument String} {count : Nat} {complete : Outcome} {limits : Limits}

/-- under a ceiling of at least `count` atoms the test ends in `complete`, which is no refusal, and under any other ceiling it
is refused -/
structure Demands (arg : Argument String) (count : Nat) (complete : Outcome) : Prop where
  status_ne : complete.status ≠ .tooManyAtoms
  check_eq : ∀ limits : Limits,
    check limits arg = if count ≤ limits.atomLimit then complete else .tooManyAtoms count limits.atomLimit

/-- what no ceiling has a part in demands no atoms -/
theorem demands_of_forall (hstatus : complete.status ≠ .tooManyAtoms) (h : ∀ limits, check limits arg = complete) :
    arg.Demands 0 complete := by
  refine ⟨hstatus, ?_⟩
  intro limits
  rw [h limits, if_pos (Nat.zero_le _)]

/-- formulas demand as many atoms as there are distinct names in them -/
theorem demands_of_readsAs {premises : List Formula} {conclusion : Formula} (hne : premises ≠ [])
    (h : arg.ReadsAs Formula.parse ⟨premises, some conclusion⟩) :
    arg.Demands (Sequitur.atoms (premises ++ [conclusion])).length
      (.checked (Table.enumerate premises conclusion (Sequitur.atoms (premises ++ [conclusion])))) := by
  refine ⟨nofun, ?_⟩
  intro limits
  rw [check_of_readsAs h]
  split_ifs with hle
  · exact test_eq_checked hne hle
  · exact test_eq_tooManyAtoms hne (Nat.lt_of_not_le hle)

/-- every argument makes a demand, whatever becomes of it -/
theorem exists_demands (arg : Argument String) : ∃ count complete, arg.Demands count complete := by
  obtain ⟨premises, conclusion⟩ := arg
  cases premises with
  | nil => exact ⟨0, .noPremises, demands_of_forall nofun fun _ => rfl⟩
  | cons p ps =>
    cases conclusion with
    | none => exact ⟨0, .noConclusion, demands_of_forall nofun fun _ => rfl⟩
    | some c =>
      cases hp : parsePremises 0 (p :: ps) with
      | error fault =>
        refine ⟨0, .malformed fault, demands_of_forall nofun fun limits => ?_⟩
        simp only [check, hp]
      | ok fs =>
        cases hc : parseConclusion c with
        | error fault =>
          refine ⟨0, .malformed fault, demands_of_forall nofun fun limits => ?_⟩
          simp only [check, hp, hc]
        | ok f =>
          have hread : ReadsAs Formula.parse ⟨p :: ps, some c⟩ ⟨fs, some f⟩ :=
            ⟨parsePremises_eq_ok_iff.1 hp, .some (parseConclusion_eq_ok_iff.1 hc)⟩
          have hne : fs ≠ [] := by
            rintro rfl
            cases hread.premises
          exact ⟨_, _, demands_of_readsAs hne hread⟩

/-- a test is refused exactly if the ceiling does not meet the demand -/
theorem Demands.refused_iff (h : arg.Demands count complete) :
    (check limits arg).status = .tooManyAtoms ↔ limits.atomLimit < count := by
  rw [h.check_eq]
  split_ifs with hle
  · exact ⟨fun hs => absurd hs h.status_ne, fun hlt => absurd hle (Nat.not_le.2 hlt)⟩
  · exact ⟨fun _ => Nat.lt_of_not_le hle, fun _ => rfl⟩

/-- under every ceiling that meets the demand the test ends in the same result -/
theorem Demands.check_eq_of_le (h : arg.Demands count complete) (hle : count ≤ limits.atomLimit) :
    check limits arg = complete := by
  rw [h.check_eq, if_pos hle]

/-- **Raising the ceiling changes no answer.** Whatever is tested: a result under one ceiling that is no refusal is the result
under every higher one; what is refused under the higher one is refused under the lower one; and from 24 on all ceilings
come to the same result, refusal or not. -/
theorem check_raised (arg : Argument String) :
    (∀ limits limits' : Limits, limits.maxAtoms ≤ limits'.maxAtoms →
      ((check limits arg).status ≠ .tooManyAtoms → check limits' arg = check limits arg) ∧
      ((check limits' arg).status = .tooManyAtoms → (check limits arg).status = .tooManyAtoms)) ∧
    ∀ limits limits' : Limits, 24 ≤ limits.maxAtoms → 24 ≤ limits'.maxAtoms → check limits arg = check limits' arg := by
  obtain ⟨count, complete, hdemands⟩ := exists_demands arg
  refine ⟨?_, ?_⟩
  · intro limits limits' hle
    have hrise : limits.atomLimit ≤ limits'.atomLimit := Limits.atomLimit_mono hle
    refine ⟨?_, ?_⟩
    · intro hstatus
      have hmeets : count ≤ limits.atomLimit := Nat.not_lt.1 fun hlt => hstatus (hdemands.refused_iff.2 hlt)
      calc check limits' arg = complete := hdemands.check_eq_of_le (Nat.le_trans hmeets hrise)
        _ = check limits arg := (hdemands.check_eq_of_le hmeets).symm
    · intro hstatus
      have hlt : limits'.atomLimit < count := hdemands.refused_iff.1 hstatus
      exact hdemands.refused_iff.2 (Nat.lt_of_le_of_lt hrise hlt)
  · intro limits limits' h h'
    rw [hdemands.check_eq, hdemands.check_eq, Limits.atomLimit_of_le h, Limits.atomLimit_of_le h']

/-- three names -/
def threeNames : Argument String := ⟨["A & B", "C"], some "A"⟩

/-- three names are refused under a ceiling of 2, so under one of 1; they are tested under one of 3, so with the same result
under one of 4; and the greatest ceiling that a word can hold is as good as 24 -/
theorem check_raised_threeNames :
    (check ⟨2⟩ threeNames).status = .tooManyAtoms ∧ (check ⟨1⟩ threeNames).status = .tooManyAtoms ∧
      (check ⟨3⟩ threeNames).status ≠ .tooManyAtoms ∧ check ⟨4⟩ threeNames = check ⟨3⟩ threeNames ∧
      check ⟨2 ^ 64 - 1⟩ threeNames = check ⟨24⟩ threeNames := by
  have hrefused : (check ⟨2⟩ threeNames).status = .tooManyAtoms := by decide
  have htested : (check ⟨3⟩ threeNames).status ≠ .tooManyAtoms := by decide
  obtain ⟨hraised, hsame⟩ := check_raised threeNames
  exact ⟨hrefused, (hraised ⟨1⟩ ⟨2⟩ (by decide)).2 hrefused, htested, (hraised ⟨3⟩ ⟨4⟩ (by decide)).1 htested,
    hsame _ _ (by decide) (by decide)⟩

end Argument

end Sequitur
