/-
The ladder of outcomes.

A test goes up a ladder of five rungs and ends on the first one that stops it: there is no premise, there is no conclusion,
a part cannot be read as a formula, there are more distinct names than may be enumerated; the top rung, a complete table,
stops every test that comes so far. What stops a test is said here once for arguments of any kind, given how their parts
are read (`Argument.Stops`). Texts are read by parsing and formulas as they stand, so the two ways to test an argument
climb the same ladder.

- `Argument.StopsFirst.unique`: a test does not end on two rungs;
- `Argument.parsePremises_eq_error_iff` and `Argument.firstFault_iff`: reading in order finds the first fault;
- `Argument.check_ladder`: testing texts climbs the ladder, reports the first fault, and agrees with testing the formulas
  where all texts are formulas.
-/
import Mathlib
import Sequitur.Proofs.Entailment

namespace Sequitur

/-- the place of a status on the ladder, counted from below -/
def Status.rung : Status → Nat
  | noPremises => 0
  | noConclusion => 1
  | malformed => 2
  | tooManyAtoms => 3
  | checked => 4

theorem Status.rung_injective : Function.Injective Status.rung := by
  intro s t h
  cases s <;> cases t <;> first | rfl | cases h

namespace Argument

section Rungs

variable {α : Type} {read : α → Except SyntaxError Formula} {limits : Limits} {arg : Argument α} {s t : Status}
  {formulas formulas' : Argument Formula} {c : α}

/-! ## Rungs -/

/-- premises and conclusion -/
def parts (arg : Argument α) : List α := arg.premises ++ arg.conclusion.toList

/-- the distinct names in an argument -/
def names (formulas : Argument Formula) : Finset String := (formulas.parts.flatMap Formula.occurrences).toFinset

/-- part for part, an argument is read as formulas -/
structure ReadsAs (read : α → Except SyntaxError Formula) (arg : Argument α) (formulas : Argument Formula) : Prop where
  premises : List.Forall₂ (fun x f => read x = .ok f) arg.premises formulas.premises
  conclusion : Option.Rel (fun x f => read x = .ok f) arg.conclusion formulas.conclusion

/-- what stops a test on a rung -/
def Stops (read : α → Except SyntaxError Formula) (limits : Limits) (arg : Argument α) : Status → Prop
  | .noPremises => arg.premises = []
  | .noConclusion => arg.conclusion = none
  | .malformed => ∃ x ∈ arg.parts, ∃ e, read x = .error e
  | .tooManyAtoms => ∃ formulas, arg.ReadsAs read formulas ∧ min limits.maxAtoms 24 < formulas.names.card
  | .checked => True

/-- the rung stops a test, and none below it does -/
def StopsFirst (read : α → Except SyntaxError Formula) (limits : Limits) (arg : Argument α) (s : Status) : Prop :=
  arg.Stops read limits s ∧ ∀ t : Status, t.rung < s.rung → ¬ arg.Stops read limits t

/-- a test does not end on two rungs -/
theorem StopsFirst.unique (h : arg.StopsFirst read limits s) (h' : arg.StopsFirst read limits t) : s = t := by
  rcases Nat.lt_trichotomy s.rung t.rung with hlt | heq | hlt
  · exact absurd h.1 (h'.2 s hlt)
  · exact Status.rung_injective heq
  · exact absurd h'.1 (h.2 t hlt)

/-- an argument is read in one way only -/
theorem ReadsAs.unique (h : arg.ReadsAs read formulas) (h' : arg.ReadsAs read formulas') : formulas = formulas' := by
  have hread : Relator.RightUnique fun x f => read x = .ok f := fun _ _ _ hf hg => Except.ok.inj (hf.symm.trans hg)
  obtain ⟨premises, conclusion⟩ := arg
  obtain ⟨fs, c⟩ := formulas
  obtain ⟨gs, d⟩ := formulas'
  obtain ⟨hfs, hc⟩ := h
  obtain ⟨hgs, hd⟩ := h'
  have hpremises : fs = gs := List.right_unique_forall₂' hread hfs hgs
  cases hc with
  | none =>
    cases hd
    rw [hpremises]
  | some hf =>
    cases hd with
    | some hg => rw [hpremises, hread hf hg]

/-- every premise is read as one of the formulas -/
theorem ReadsAs.exists_formula (h : arg.ReadsAs read formulas) :
    ∀ x ∈ arg.premises, ∃ f ∈ formulas.premises, read x = .ok f := by
  intro x hx
  obtain ⟨i, hi, rfl⟩ := List.mem_iff_getElem.1 hx
  have hi' : i < formulas.premises.length := h.premises.length_eq ▸ hi
  exact ⟨_, List.getElem_mem hi', h.premises.get hi hi'⟩

/-- and every formula is what one of the premises is read as -/
theorem ReadsAs.exists_premise (h : arg.ReadsAs read formulas) :
    ∀ f ∈ formulas.premises, ∃ x ∈ arg.premises, read x = .ok f := by
  intro f hf
  obtain ⟨i, hi, rfl⟩ := List.mem_iff_getElem.1 hf
  have hi' : i < arg.premises.length := h.premises.length_eq ▸ hi
  exact ⟨_, List.getElem_mem hi', h.premises.get hi' hi⟩

/-- what can be read is read part for part -/
theorem ReadsAs.exists_ok (h : arg.ReadsAs read formulas) : ∀ x ∈ arg.parts, ∃ f, read x = .ok f := by
  intro x hx
  rcases List.mem_append.1 hx with hx | hx
  · obtain ⟨f, -, hf⟩ := h.exists_formula x hx
    exact ⟨f, hf⟩
  · have hc := h.conclusion
    rw [Option.mem_toList.1 hx] at hc
    generalize formulas.conclusion = c at hc
    cases hc with
    | some hf => exact ⟨_, hf⟩

/-- no formula is there that is not read from a part -/
theorem ReadsAs.exists_part (h : arg.ReadsAs read formulas) : ∀ f ∈ formulas.parts, ∃ x ∈ arg.parts, read x = .ok f := by
  intro f hf
  rcases List.mem_append.1 hf with hf | hf
  · obtain ⟨x, hx, hread⟩ := h.exists_premise f hf
    exact ⟨x, List.mem_append_left _ hx, hread⟩
  · have hc := h.conclusion
    rw [Option.mem_toList.1 hf] at hc
    generalize hd : arg.conclusion = d at hc
    cases hc with
    | @some x _ hread => exact ⟨x, List.mem_append_right _ (Option.mem_toList.2 hd), hread⟩

/-- formulas are read as they stand -/
theorem readsAs_self (formulas : Argument Formula) : formulas.ReadsAs .ok formulas := by
  obtain ⟨fs, c⟩ := formulas
  refine ⟨List.forall₂_same.2 fun _ _ => rfl, ?_⟩
  cases c with
  | none => exact .none
  | some f => exact .some rfl

/-- what can be read does not stop at a fault -/
theorem ReadsAs.not_stops_malformed (h : arg.ReadsAs read formulas) : ¬ arg.Stops read limits .malformed := by
  rintro ⟨x, hx, e, he⟩
  obtain ⟨f, hf⟩ := h.exists_ok x hx
  rw [hf] at he
  cases he

theorem stopsFirst_noPremises (h : arg.premises = []) : arg.StopsFirst read limits .noPremises :=
  ⟨h, fun _ ht => absurd ht (Nat.not_lt_zero _)⟩

theorem stopsFirst_noConclusion (hp : arg.premises ≠ []) (hc : arg.conclusion = none) :
    arg.StopsFirst read limits .noConclusion := by
  refine ⟨hc, ?_⟩
  intro t ht
  cases t with
  | noPremises => exact hp
  | _ => simp [Status.rung] at ht

theorem stopsFirst_malformed (hp : arg.premises ≠ []) (hc : arg.conclusion ≠ none)
    (h : arg.Stops read limits .malformed) : arg.StopsFirst read limits .malformed := by
  refine ⟨h, ?_⟩
  intro t ht
  cases t with
  | noPremises => exact hp
  | noConclusion => exact hc
  | _ => simp [Status.rung] at ht

theorem stopsFirst_tooManyAtoms (hp : arg.premises ≠ []) (hc : arg.conclusion ≠ none)
    (h : arg.ReadsAs read formulas) (hlt : min limits.maxAtoms 24 < formulas.names.card) :
    arg.StopsFirst read limits .tooManyAtoms := by
  refine ⟨⟨formulas, h, hlt⟩, ?_⟩
  intro t ht
  cases t with
  | noPremises => exact hp
  | noConclusion => exact hc
  | malformed => exact h.not_stops_malformed
  | _ => simp [Status.rung] at ht

theorem stopsFirst_checked (hp : arg.premises ≠ []) (hc : arg.conclusion ≠ none)
    (h : arg.ReadsAs read formulas) (hle : formulas.names.card ≤ min limits.maxAtoms 24) :
    arg.StopsFirst read limits .checked := by
  refine ⟨trivial, ?_⟩
  intro t ht
  cases t with
  | noPremises => exact hp
  | noConclusion => exact hc
  | malformed => exact h.not_stops_malformed
  | tooManyAtoms =>
    rintro ⟨formulas', h', hlt⟩
    rw [h'.unique h] at hlt
    exact absurd hlt (Nat.not_lt.2 hle)
  | checked => simp [Status.rung] at ht

/-! ## Outcomes -/

/-- an outcome is the one of an argument: it stands on the first rung that stops the test, a fault is reported only on the
third, and only the top rung shows atoms, rows, counterexamples and an example, all rows there are -/
structure Ladder (read : α → Except SyntaxError Formula) (limits : Limits) (arg : Argument α) (o : Outcome) : Prop where
  status_eq_iff : ∀ s, o.status = s ↔ arg.StopsFirst read limits s
  isSome_fault_iff : o.fault?.isSome = true ↔ o.status = .malformed
  bare : o.status ≠ .checked →
    o.isValid = false ∧ o.atoms = [] ∧ o.rows = [] ∧ o.counterexamples = [] ∧ o.example? = none
  complete : o.status = .checked → ∃ formulas, arg.ReadsAs read formulas ∧ o.atoms.toFinset = formulas.names ∧
    o.atoms.length = formulas.names.card ∧ o.rows.length = 2 ^ formulas.names.card

/-- the last clause alone depends on the argument -/
theorem ladder_of_stopsFirst {o : Outcome} (h : arg.StopsFirst read limits o.status)
    (hcomplete : o.status = .checked → ∃ formulas, arg.ReadsAs read formulas ∧ o.atoms.toFinset = formulas.names ∧
      o.atoms.length = formulas.names.card ∧ o.rows.length = 2 ^ formulas.names.card) : arg.Ladder read limits o where
  status_eq_iff s := ⟨fun hs => hs ▸ h, fun hs => h.unique hs⟩
  isSome_fault_iff := by cases o <;> simp [Outcome.fault?, Outcome.status]
  bare hs := by
    cases o with
    | checked t => exact absurd rfl hs
    | _ => exact ⟨rfl, rfl, rfl, rfl, rfl⟩
  complete := hcomplete

end Rungs

section Tests

variable {limits : Limits} {formulas : Argument Formula} {premises : List String} {conclusion : String} {fault : Fault}

theorem card_names (fs : List Formula) (f : Formula) :
    (⟨fs, some f⟩ : Argument Formula).names.card = (Sequitur.atoms (fs ++ [f])).length :=
  (length_atoms _).symm

theorem test_eq_tooManyAtoms {fs : List Formula} {f : Formula} (hne : fs ≠ [])
    (hlt : limits.atomLimit < (Sequitur.atoms (fs ++ [f])).length) :
    test limits ⟨fs, some f⟩ = .tooManyAtoms (Sequitur.atoms (fs ++ [f])).length limits.atomLimit := by
  cases fs with
  | nil => exact absurd rfl hne
  | cons p ps => exact if_neg (Nat.not_le.2 hlt)

/-- what is read as formulas is tested up to the two top rungs -/
theorem ladder_of_readsAs {α : Type} {read : α → Except SyntaxError Formula} {arg : Argument α}
    (h : arg.ReadsAs read formulas) (hp : arg.premises ≠ []) (hc : arg.conclusion ≠ none) :
    arg.Ladder read limits (test limits formulas) := by
  obtain ⟨fs, conclusion⟩ := formulas
  have hne : fs ≠ [] := by
    rintro rfl
    exact hp (List.forall₂_nil_right_iff.1 h.premises)
  cases conclusion with
  | none =>
    have hrel := h.conclusion
    cases harg : arg.conclusion with
    | none => exact absurd harg hc
    | some x =>
      rw [harg] at hrel
      cases hrel
  | some f =>
    rcases Nat.lt_or_ge limits.atomLimit (Sequitur.atoms (fs ++ [f])).length with hlt | hle
    · rw [test_eq_tooManyAtoms hne hlt]
      refine ladder_of_stopsFirst (stopsFirst_tooManyAtoms hp hc h ?_) (fun hs => by cases hs)
      rw [card_names]
      exact hlt
    · rw [test_eq_checked hne hle]
      refine ladder_of_stopsFirst (stopsFirst_checked hp hc h ?_) fun _ => ⟨_, h, ?_, ?_, ?_⟩
      · rw [card_names]
        exact hle
      · ext a
        simp [Outcome.atoms, names, parts, mem_atoms]
      · rw [card_names]
        rfl
      · rw [card_names, Outcome.rows, Table.length_enumerate, maskCount_eq]
        rfl

/-- testing formulas climbs the ladder -/
theorem ladder_test (limits : Limits) (formulas : Argument Formula) :
    formulas.Ladder .ok limits (test limits formulas) := by
  obtain ⟨premises, conclusion⟩ := formulas
  cases premises with
  | nil => exact ladder_of_stopsFirst (stopsFirst_noPremises rfl) (fun h => by cases h)
  | cons p ps =>
    have hp : p :: ps ≠ [] := List.cons_ne_nil _ _
    cases conclusion with
    | none => exact ladder_of_stopsFirst (stopsFirst_noConclusion hp rfl) (fun h => by cases h)
    | some c => exact ladder_of_readsAs (readsAs_self _) hp (Option.some_ne_none c)

/-! ## Faults -/

/-- the first text of an argument that is no formula, with the error it is refused with: the premise with the least index,
or the conclusion if all premises are formulas -/
inductive FirstFault (premises : List String) (conclusion : String) : Fault → Prop where
  | premise {before after : List String} {p : String} {e : SyntaxError} : premises = before ++ p :: after →
      (∀ q ∈ before, ∃ f, Formula.parse q = .ok f) → Formula.parse p = .error e →
      FirstFault premises conclusion ⟨.premise before.length, p, e⟩
  | conclusion {e : SyntaxError} : (∀ q ∈ premises, ∃ f, Formula.parse q = .ok f) →
      Formula.parse conclusion = .error e → FirstFault premises conclusion ⟨.conclusion, conclusion, e⟩

/-- premises that are read are formulas one by one -/
theorem parsePremises_eq_ok_iff {index : Nat} {texts : List String} {fs : List Formula} :
    parsePremises index texts = .ok fs ↔ List.Forall₂ (fun s f => Formula.parse s = .ok f) texts fs := by
  refine ⟨fun h => ?_, parsePremises_eq_ok⟩
  induction texts generalizing index fs with
  | nil =>
    cases h
    exact .nil
  | cons p texts ih =>
    rw [parsePremises] at h
    cases hp : Formula.parse p with
    | error e =>
      rw [hp] at h
      cases h
    | ok f =>
      rw [hp] at h
      cases hrest : parsePremises (index + 1) texts with
      | error fault =>
        simp only [hrest] at h
        cases h
      | ok gs =>
        simp only [hrest] at h
        cases h
        exact .cons hp (ih hrest)

/-- otherwise reading them stops at the first that is none -/
theorem parsePremises_eq_error_iff {index : Nat} {texts : List String} :
    parsePremises index texts = .error fault ↔ ∃ before p after e, texts = before ++ p :: after ∧
      (∀ q ∈ before, ∃ f, Formula.parse q = .ok f) ∧ Formula.parse p = .error e ∧
      fault = ⟨.premise (index + before.length), p, e⟩ := by
  induction texts generalizing index with
  | nil => simp [parsePremises]
  | cons s texts ih =>
    rw [parsePremises]
    cases hs : Formula.parse s with
    | error e =>
      constructor
      · intro h
        cases h
        exact ⟨[], s, texts, e, rfl, by simp, hs, rfl⟩
      · rintro ⟨before, p, after, e', htexts, hbefore, hp, rfl⟩
        cases before with
        | nil =>
          cases htexts
          rw [hs] at hp
          cases hp
          rfl
        | cons q before =>
          cases htexts
          obtain ⟨f, hf⟩ := hbefore s List.mem_cons_self
          rw [hs] at hf
          cases hf
    | ok f =>
      have hmap : (parsePremises (index + 1) texts).map (f :: ·) = .error fault ↔
          parsePremises (index + 1) texts = .error fault := by
        cases parsePremises (index + 1) texts <;> simp [Except.map]
      simp only
      rw [hmap, ih]
      constructor
      · rintro ⟨before, p, after, e, rfl, hbefore, hp, rfl⟩
        refine ⟨s :: before, p, after, e, rfl, ?_, hp, ?_⟩
        · intro q hq
          rcases List.mem_cons.1 hq with rfl | hq
          · exact ⟨f, hs⟩
          · exact hbefore q hq
        · rw [List.length_cons, Nat.add_right_comm, Nat.add_assoc]
      · rintro ⟨before, p, after, e, htexts, hbefore, hp, rfl⟩
        cases before with
        | nil =>
          cases htexts
          rw [hs] at hp
          cases hp
        | cons q before =>
          cases htexts
          refine ⟨before, p, after, e, rfl, fun q hq => hbefore q (List.mem_cons_of_mem _ hq), hp, ?_⟩
          rw [List.length_cons, Nat.add_right_comm, Nat.add_assoc]

theorem parseConclusion_eq_ok_iff {f : Formula} :
    parseConclusion conclusion = .ok f ↔ Formula.parse conclusion = .ok f := by
  unfold parseConclusion
  split
  · rename_i e he
    simp [he]
  · rename_i g hg
    simp [hg]

theorem parseConclusion_eq_error_iff : parseConclusion conclusion = .error fault ↔
    ∃ e, Formula.parse conclusion = .error e ∧ fault = ⟨.conclusion, conclusion, e⟩ := by
  unfold parseConclusion
  split
  · rename_i e he
    simp [he, eq_comm]
  · rename_i g hg
    simp [hg]

/-- reading the premises in order and then the conclusion finds the first fault -/
theorem firstFault_iff : FirstFault premises conclusion fault ↔ parsePremises 0 premises = .error fault ∨
    (∃ fs, parsePremises 0 premises = .ok fs) ∧ parseConclusion conclusion = .error fault := by
  constructor
  · intro h
    cases h with
    | premise htexts hbefore hp =>
      exact .inl (parsePremises_eq_error_iff.2 ⟨_, _, _, _, htexts, hbefore, hp, by rw [Nat.zero_add]⟩)
    | conclusion hall he =>
      refine .inr ⟨?_, ?_⟩
      · cases hp : parsePremises 0 premises with
        | ok fs => exact ⟨fs, rfl⟩
        | error fault =>
          obtain ⟨before, p, after, e, rfl, -, he, -⟩ := parsePremises_eq_error_iff.1 hp
          obtain ⟨f, hf⟩ := hall p (by simp)
          rw [he] at hf
          cases hf
      · exact parseConclusion_eq_error_iff.2 ⟨_, he, rfl⟩
  · rintro (h | ⟨⟨fs, hfs⟩, hc⟩)
    · obtain ⟨before, p, after, e, htexts, hbefore, hp, rfl⟩ := parsePremises_eq_error_iff.1 h
      rw [Nat.zero_add]
      exact .premise htexts hbefore hp
    · have hread : ReadsAs Formula.parse ⟨premises, none⟩ ⟨fs, none⟩ := ⟨parsePremises_eq_ok_iff.1 hfs, .none⟩
      have hall : ∀ q ∈ premises, ∃ f, Formula.parse q = .ok f := fun q hq => hread.exists_ok q (by simpa [parts] using hq)
      obtain ⟨e, he, rfl⟩ := parseConclusion_eq_error_iff.1 hc
      exact .conclusion hall he

/-- a first fault stops the test -/
theorem FirstFault.stops (h : FirstFault premises conclusion fault) (limits : Limits) :
    Stops Formula.parse limits ⟨premises, some conclusion⟩ .malformed := by
  cases h with
  | premise htexts _ he => exact ⟨_, by simp [parts, htexts], _, he⟩
  | conclusion _ he => exact ⟨_, by simp [parts], _, he⟩

/-! ## Texts -/

/-- testing texts ends before they are looked at, at the first fault, or as testing the formulas does -/
theorem check_cases (limits : Limits) (p : String) (ps : List String) (c : String) :
    (∃ fault, FirstFault (p :: ps) c fault ∧ check limits ⟨p :: ps, some c⟩ = .malformed fault) ∨
      ∃ formulas, ReadsAs Formula.parse ⟨p :: ps, some c⟩ formulas ∧
        check limits ⟨p :: ps, some c⟩ = test limits formulas := by
  cases hp : parsePremises 0 (p :: ps) with
  | error fault =>
    refine .inl ⟨fault, firstFault_iff.2 (.inl hp), ?_⟩
    simp only [check, hp]
  | ok fs =>
    cases hc : parseConclusion c with
    | error fault =>
      refine .inl ⟨fault, firstFault_iff.2 (.inr ⟨⟨fs, hp⟩, hc⟩), ?_⟩
      simp only [check, hp, hc]
    | ok f =>
      refine .inr ⟨⟨fs, some f⟩, ⟨parsePremises_eq_ok_iff.1 hp, .some (parseConclusion_eq_ok_iff.1 hc)⟩, ?_⟩
      simp only [check, hp, hc]

/-- there is one first fault at most -/
theorem FirstFault.unique {fault' : Fault} (h : FirstFault premises conclusion fault)
    (h' : FirstFault premises conclusion fault') : fault = fault' := by
  rcases firstFault_iff.1 h with hp | ⟨⟨fs, hfs⟩, hc⟩
  · rcases firstFault_iff.1 h' with hp' | ⟨⟨fs, hfs⟩, -⟩
    · exact Except.error.inj (hp.symm.trans hp')
    · rw [hp] at hfs
      cases hfs
  · rcases firstFault_iff.1 h' with hp' | ⟨-, hc'⟩
    · rw [hp'] at hfs
      cases hfs
    · exact Except.error.inj (hc.symm.trans hc')

/-- texts that are formulas are tested as the formulas -/
theorem check_of_readsAs {arg : Argument String} (h : arg.ReadsAs Formula.parse formulas) :
    check limits arg = test limits formulas := by
  obtain ⟨texts, text⟩ := arg
  obtain ⟨fs, f⟩ := formulas
  obtain ⟨hfs, hf⟩ := h
  cases hf with
  | some hf => exact check_eq_test hfs hf
  | none =>
    cases hfs with
    | nil => rfl
    | cons _ _ => rfl

/-- testing texts climbs the ladder -/
theorem ladder_check (limits : Limits) (arg : Argument String) :
    arg.Ladder Formula.parse limits (check limits arg) := by
  obtain ⟨premises, conclusion⟩ := arg
  cases premises with
  | nil => exact ladder_of_stopsFirst (stopsFirst_noPremises rfl) (fun h => by cases h)
  | cons p ps =>
    have hp : p :: ps ≠ [] := List.cons_ne_nil _ _
    cases conclusion with
    | none => exact ladder_of_stopsFirst (stopsFirst_noConclusion hp rfl) (fun h => by cases h)
    | some c =>
      have hc : some c ≠ none := Option.some_ne_none c
      rcases check_cases limits p ps c with ⟨fault, hfault, heq⟩ | ⟨formulas, hread, heq⟩
      · rw [heq]
        exact ladder_of_stopsFirst (stopsFirst_malformed hp hc (hfault.stops limits)) (fun h => by cases h)
      · rw [heq]
        exact ladder_of_readsAs hread hp hc

/-- a checked argument is one of formulas, and its outcome is the table of their atoms -/
theorem exists_of_checked {arg : Argument String} (h : (check limits arg).status = .checked) : ∃ formulas c,
    arg.ReadsAs Formula.parse formulas ∧ formulas.conclusion = some c ∧
      check limits arg =
        .checked (Table.enumerate formulas.premises c (Sequitur.atoms (formulas.premises ++ [c]))) := by
  obtain ⟨formulas, hread, -⟩ := (ladder_check limits arg).complete h
  have heq : check limits arg = test limits formulas := check_of_readsAs hread
  obtain ⟨c, hc, htable⟩ := eq_of_checked (heq ▸ h)
  exact ⟨formulas, c, hread, hc, heq.trans htable⟩

/-- the fault that is reported is the first one -/
theorem fault_check_iff {limits : Limits} {arg : Argument String} : (check limits arg).fault? = some fault ↔
    arg.premises ≠ [] ∧ ∃ c, arg.conclusion = some c ∧ FirstFault arg.premises c fault := by
  have hladder := ladder_check limits arg
  obtain ⟨premises, conclusion⟩ := arg
  cases premises with
  | nil => exact ⟨fun h => (by cases h), fun h => absurd rfl h.1⟩
  | cons p ps =>
    cases conclusion with
    | none => exact ⟨fun h => (by cases h), fun ⟨_, _, h, _⟩ => (by cases h)⟩
    | some c =>
      rcases check_cases limits p ps c with ⟨found, hfound, heq⟩ | ⟨formulas, hread, -⟩
      · rw [heq]
        constructor
        · intro h
          cases h
          exact ⟨List.cons_ne_nil _ _, c, rfl, hfound⟩
        · rintro ⟨-, d, hd, hfault⟩
          cases hd
          rw [hfound.unique hfault]
          rfl
      · constructor
        · intro h
          have hs : (check limits ⟨p :: ps, some c⟩).status = .malformed := hladder.isSome_fault_iff.1 (h ▸ rfl)
          exact absurd ((hladder.status_eq_iff _).1 hs).1 hread.not_stops_malformed
        · rintro ⟨-, d, hd, hfault⟩
          cases hd
          exact absurd (hfault.stops limits) hread.not_stops_malformed

/-- **The ladder of outcomes.** Testing texts ends on the first rung that stops it. A fault is reported exactly if there are
premises and a conclusion and some of them is no formula; it is the first one, with its text and its error. Texts that are
formulas come to what the formulas come to, and testing formulas climbs the same ladder. Below the top rung nothing is
shown, and on the top rung all rows are. -/
theorem check_ladder (limits : Limits) (arg : Argument String) :
    arg.Ladder Formula.parse limits (check limits arg) ∧
      (∀ fault, (check limits arg).fault? = some fault ↔
        arg.premises ≠ [] ∧ ∃ c, arg.conclusion = some c ∧ FirstFault arg.premises c fault) ∧
      ∀ formulas, formulas.Ladder .ok limits (test limits formulas) ∧
        (arg.ReadsAs Formula.parse formulas → check limits arg = test limits formulas) :=
  ⟨ladder_check limits arg, fun _ => fault_check_iff, fun formulas => ⟨ladder_test limits formulas, check_of_readsAs⟩⟩

end Tests

end Argument

end Sequitur
