/-
Stored verdicts stay true.

What is stored of a test is its verdict without the table. It can be tested again at any time, and the argument that it
belongs to says on its own, by its texts, under which assignments it is refuted (`Argument.RefutedBy`). An analysis is
truthful when testing again gives what was stored, when a valid one is entailed, and when the stored number of
counterexamples is the number of assignments of the stored atoms that refute the argument.

Every analysis in a store has been made by adding it, or has been read back as it was made. So a property that analyses have
when they are made is one that they all have, in memory and in the file, whatever happens to the store
(`Store.Throughout`).

- `Argument.encard_refutations`: a test lists as many counterexamples as there are assignments that refute the argument;
- `Analysis.truthful_of_tested`: an analysis with the summary of its own test is truthful;
- `Store.Throughout.run`: what holds of all analyses when they are made holds along a run;
- `Store.truthful_run`: from nothing, across adds, failed writes and reloads, all analyses are truthful;
- `Service.truthful_handle`: requests keep them so.
-/
import Mathlib
import Sequitur.Proofs.Assignments
import Sequitur.Proofs.Ladder
import Sequitur.Proofs.Requests

namespace Sequitur

/-! ## Assignments that refute -/

/-- under the assignment all premises are true and the conclusion is false; what cannot be read or evaluated is neither -/
structure Argument.RefutedBy (arg : Argument String) (s : Assignment) : Prop where
  premises : ∀ p ∈ arg.premises, ∃ f, Formula.parse p = .ok f ∧ f.eval s.value? = .ok true
  conclusion : ∃ c f, arg.conclusion = some c ∧ Formula.parse c = .ok f ∧ f.eval s.value? = .ok false

/-- the assignments of some atoms that refute an argument -/
def Argument.refutations (arg : Argument String) (atoms : List String) : Set Assignment :=
  {s | s.map Prod.fst = atoms ∧ arg.RefutedBy s}

/-- an evaluation comes across some variable, so it needs at least one value -/
theorem Formula.exists_eval_nil (f : Formula) : ∃ e, f.eval (Assignment.value? []) = .error e := by
  induction f with
  | var a => exact ⟨⟨a⟩, rfl⟩
  | not f ih =>
    obtain ⟨e, he⟩ := ih
    exact ⟨e, by rw [eval, he]; rfl⟩
  | bin op l r ihl _ =>
    obtain ⟨e, he⟩ := ihl
    exact ⟨e, by rw [eval, he]; rfl⟩

/-! ## Counting them -/

namespace Table

variable {premises : List Formula} {conclusion : Formula} {atoms : List String} {v : String → Bool}

/-- the assignments of the counterexamples, one for each -/
def refuting (t : Table) : List Assignment := t.counterexamples.map fun r => t.atoms.zip r.values

theorem mem_refuting_enumerate (hn : atoms.Nodup) (hc : Covers atoms premises conclusion) {s : Assignment} :
    s ∈ (enumerate premises conclusion atoms).refuting ↔
      ∃ v, s = Assignment.under atoms v ∧ (∀ p ∈ premises, p.truth v = true) ∧ conclusion.truth v = false := by
  simp only [refuting, counterexamples, List.mem_map, List.mem_filter, atoms_enumerate]
  constructor
  · rintro ⟨r, ⟨hr, hrefutes⟩, rfl⟩
    obtain ⟨v, rfl⟩ := (mem_rows_enumerate hn hc).1 hr
    exact ⟨v, zip_values_under, Row.isCounterexample_under.1 hrefutes⟩
  · rintro ⟨v, rfl, hv⟩
    exact ⟨_, ⟨(mem_rows_enumerate hn hc).2 ⟨v, rfl⟩, Row.isCounterexample_under.2 hv⟩, zip_values_under⟩

/-- no two rows have one assignment -/
theorem nodup_refuting_enumerate : (enumerate premises conclusion atoms).refuting.Nodup := by
  have hrows : ((enumerate premises conclusion atoms).rows.map fun r => atoms.zip r.values).Nodup := by
    rw [rows_enumerate, List.map_map]
    refine List.Nodup.map_on ?_ List.nodup_range
    intro m hm k hk heq
    have hvalues : (List.range atoms.length).map m.testBit = (List.range atoms.length).map k.testBit := by
      have hzip : atoms.zip ((List.range atoms.length).map m.testBit) =
          atoms.zip ((List.range atoms.length).map k.testBit) := heq
      simpa [List.map_snd_zip] using congrArg (List.map Prod.snd) hzip
    refine eq_of_testBit_lt (List.mem_range.1 hm) (List.mem_range.1 hk) ?_
    exact fun i hi => List.map_inj_left.1 hvalues i (List.mem_range.2 hi)
  exact hrows.sublist (List.filter_sublist.map _)

end Table

namespace Argument

variable {limits : Limits} {arg : Argument String} {formulas : Argument Formula} {atoms : List String}
  {v : String → Bool} {c : Formula}

/-- where all texts are formulas over the atoms, refuting is a matter of classical truth -/
theorem refutedBy_under_iff (h : arg.ReadsAs Formula.parse formulas) (hc : formulas.conclusion = some c)
    (hcov : Covers atoms formulas.premises c) : arg.RefutedBy (Assignment.under atoms v) ↔
      (∀ p ∈ formulas.premises, p.truth v = true) ∧ c.truth v = false := by
  have heval : ∀ f ∈ formulas.premises ++ [c], f.eval (Assignment.under atoms v).value? = .ok (f.truth v) :=
    fun f hf => Formula.eval_under (hcov f hf)
  have hpremise : ∀ p ∈ formulas.premises, p.eval (Assignment.under atoms v).value? = .ok (p.truth v) :=
    fun p hp => heval p (List.mem_append_left _ hp)
  have hconclusion := heval c (List.mem_append_right _ (List.mem_singleton.2 rfl))
  have hread := h.conclusion
  rw [hc] at hread
  generalize hd : arg.conclusion = d at hread
  cases hread with
  | @some text _ hparse =>
    constructor
    · rintro ⟨hpremises, text', f, htext, hf, hfalse⟩
      cases hd.symm.trans htext
      obtain rfl : c = f := Except.ok.inj (hparse.symm.trans hf)
      refine ⟨fun p hp => ?_, Except.ok.inj (hconclusion.symm.trans hfalse)⟩
      obtain ⟨x, hx, hxp⟩ := h.exists_premise p hp
      obtain ⟨g, hg, htrue⟩ := hpremises x hx
      obtain rfl : p = g := Except.ok.inj (hxp.symm.trans hg)
      exact Except.ok.inj ((hpremise p hp).symm.trans htrue)
    · rintro ⟨htrue, hfalse⟩
      refine ⟨fun x hx => ?_, text, c, hd, hparse, by rw [hconclusion, hfalse]⟩
      obtain ⟨p, hp, hxp⟩ := h.exists_formula x hx
      exact ⟨p, hxp, by rw [hpremise p hp, htrue p hp]⟩

/-- nothing is refuted as long as no variable is bound -/
theorem not_refutedBy_nil : ¬ arg.RefutedBy [] := by
  rintro ⟨-, c, f, -, -, hfalse⟩
  obtain ⟨e, he⟩ := f.exists_eval_nil
  rw [he] at hfalse
  cases hfalse

/-- the assignments that refute an argument are those of the counterexamples in its table -/
theorem mem_refutations_iff (hread : arg.ReadsAs Formula.parse formulas) (hc : formulas.conclusion = some c)
    (hn : atoms.Nodup) (hcov : Covers atoms formulas.premises c) {s : Assignment} :
    s ∈ arg.refutations atoms ↔ s ∈ (Table.enumerate formulas.premises c atoms).refuting := by
  rw [Table.mem_refuting_enumerate hn hcov]
  constructor
  · rintro ⟨hnames, hrefuted⟩
    obtain ⟨v, hv⟩ := Assignment.exists_eq_under (hnames ▸ hn)
    rw [hnames] at hv
    rw [hv] at hrefuted
    exact ⟨v, hv, (refutedBy_under_iff hread hc hcov).1 hrefuted⟩
  · rintro ⟨v, rfl, hv⟩
    exact ⟨Assignment.names_under, (refutedBy_under_iff hread hc hcov).2 hv⟩

theorem encard_refutations_of_readsAs (hread : arg.ReadsAs Formula.parse formulas) (hc : formulas.conclusion = some c)
    (hn : atoms.Nodup) (hcov : Covers atoms formulas.premises c) :
    (arg.refutations atoms).encard = (Table.enumerate formulas.premises c atoms).counterexamples.length := by
  have hset : arg.refutations atoms = (Table.enumerate formulas.premises c atoms).refuting.toFinset := by
    ext s
    rw [mem_refutations_iff hread hc hn hcov, List.coe_toFinset]
    rfl
  rw [hset, Set.encard_coe_eq_coe_finsetCard, List.toFinset_card_of_nodup Table.nodup_refuting_enumerate,
    Table.refuting, List.length_map]

/-- a test lists as many counterexamples as there are assignments of its atoms that refute the argument -/
theorem encard_refutations (limits : Limits) (arg : Argument String) :
    (arg.refutations (check limits arg).atoms).encard = (check limits arg).counterexamples.length := by
  by_cases hstatus : (check limits arg).status = .checked
  · obtain ⟨formulas, c, hread, hc, heq⟩ := exists_of_checked hstatus
    rw [heq]
    exact encard_refutations_of_readsAs hread hc (nodup_atoms _) (covers_atoms _ _)
  · obtain ⟨-, hatoms, -, hnone, -⟩ := (ladder_check limits arg).bare hstatus
    have hempty : arg.refutations [] = ∅ := by
      refine Set.eq_empty_of_forall_notMem ?_
      rintro s ⟨hnames, hrefuted⟩
      rw [List.map_eq_nil_iff.1 hnames] at hrefuted
      exact not_refutedBy_nil hrefuted
    rw [hatoms, hnone, hempty, Set.encard_empty]
    rfl

/-- counterexamples are few enough to be counted in 64 bits -/
theorem length_counterexamples_lt (limits : Limits) (arg : Argument String) :
    (check limits arg).counterexamples.length < UInt64.size := by
  by_cases hstatus : (check limits arg).status = .checked
  · obtain ⟨formulas, hread, -, -, hrows⟩ := (ladder_check limits arg).complete hstatus
    have hstops := ((ladder_check limits arg).status_eq_iff _).1 hstatus
    have hcard : formulas.names.card ≤ 24 := by
      have hle : formulas.names.card ≤ min limits.maxAtoms 24 :=
        Nat.not_lt.1 fun hlt => hstops.2 .tooManyAtoms (by decide) ⟨formulas, hread, hlt⟩
      omega
    calc (check limits arg).counterexamples.length ≤ (check limits arg).rows.length := by
          obtain ⟨fs, c, -, -, heq⟩ := exists_of_checked hstatus
          rw [heq]
          exact List.length_filter_le _ _
      _ = 2 ^ formulas.names.card := hrows
      _ ≤ 2 ^ 24 := Nat.pow_le_pow_right (by decide) hcard
      _ < UInt64.size := by decide
  · rw [((ladder_check limits arg).bare hstatus).2.2.2.1]
    decide

/-- a verdict that is positive comes with a complete table, and is right -/
theorem entails_of_isValid (h : (check limits arg).isValid = true) : (check limits arg).status = .checked ∧
    (check limits arg).counterexamples = [] ∧
    ∃ formulas c, arg.ReadsAs Formula.parse formulas ∧ formulas.conclusion = some c ∧
      Entails formulas.premises c := by
  have hstatus : (check limits arg).status = .checked := by
    by_contra hs
    rw [((ladder_check limits arg).bare hs).1] at h
    cases h
  obtain ⟨formulas, c, hread, hc, heq⟩ := exists_of_checked hstatus
  rw [heq] at h ⊢
  exact ⟨rfl, List.isEmpty_iff.1 h, formulas, c, hread, hc,
    (Table.isEmpty_counterexamples_iff (nodup_atoms _) (covers_atoms _ _)).1 h⟩

end Argument

/-! ## Truthful analyses -/

/-- testing the argument of an analysis again gives what was stored, and what was stored is true of the argument -/
structure Analysis.Truthful (limits : Limits) (x : Analysis) : Prop where
  status_eq : (x.argument.check limits).status = x.summary.status
  isValid_eq : (x.argument.check limits).isValid = x.summary.isValid
  atoms_eq : (x.argument.check limits).atoms = x.summary.atoms
  explanation_eq : (x.argument.check limits).explanation = x.summary.explanation
  count_eq : (x.argument.check limits).counterexamples.length = x.summary.counterexampleCount.toNat
  valid : x.summary.isValid = true → x.summary.status = .checked ∧ x.summary.counterexampleCount = 0 ∧
    ∃ formulas c, x.argument.ReadsAs Formula.parse formulas ∧ formulas.conclusion = some c ∧
      Entails formulas.premises c
  refutations : (x.argument.refutations x.summary.atoms).encard = x.summary.counterexampleCount.toNat

theorem Analysis.truthful_of_tested {limits : Limits} {x : Analysis}
    (h : x.summary = (x.argument.check limits).summary) : x.Truthful limits := by
  have hcount : (x.argument.check limits).counterexamples.length = x.summary.counterexampleCount.toNat := by
    rw [h, Outcome.summary, UInt64.toNat_ofNat_of_lt' (Argument.length_counterexamples_lt _ _)]
  constructor
  case status_eq => rw [h, Outcome.summary]
  case isValid_eq => rw [h, Outcome.summary]
  case atoms_eq => rw [h, Outcome.summary]
  case explanation_eq => rw [h, Outcome.summary]
  case count_eq => exact hcount
  case valid =>
    intro hvalid
    rw [h] at hvalid
    obtain ⟨hstatus, hnone, hentails⟩ := Argument.entails_of_isValid hvalid
    rw [h]
    refine ⟨hstatus, ?_, hentails⟩
    rw [Outcome.summary, hnone]
    rfl
  case refutations =>
    rw [← hcount, ← Argument.encard_refutations, h, Outcome.summary]

/-! ## Along a run -/

namespace Store

variable {P : Analysis → Prop} {s : Store} {e : Event} {events : List Event}

/-- all analyses have a property, those in memory and those in the file -/
structure Throughout (P : Analysis → Prop) (s : Store) : Prop where
  archive : ∀ x ∈ s.archive.analyses, P x
  saved : ∀ x ∈ s.place.held.analyses, P x

/-- an analysis that an event makes has a property, whatever the archive is that it goes to -/
def Event.Makes (P : Analysis → Prop) : Event → Prop
  | .add now arg summary _ => ∀ a : Archive, P (a.entry now arg summary)
  | .reload => True

theorem Throughout.ofPlace {p : Place} (h : ∀ x ∈ p.held.analyses, P x) : (ofPlace p).Throughout P where
  archive x hx := h x (List.mem_of_mem_filter hx)
  saved := h

/-- an event adds what it makes and no other analysis -/
theorem Throughout.step (h : s.Throughout P) (he : e.Makes P) : (s.step e).Throughout P := by
  cases e with
  | reload => exact .ofPlace h.saved
  | add now arg summary writable =>
    have hpush : ∀ x ∈ (s.archive.push (s.archive.entry now arg summary)).analyses, P x := by
      intro x hx
      rcases Archive.mem_push hx with hx | rfl
      · exact h.archive x hx
      · exact he s.archive
    cases hr : arg.refusal? with
    | some r =>
      rw [Store.step, add_of_refusal hr]
      exact ⟨h.archive, h.saved⟩
    | none =>
      cases writable with
      | true =>
        rw [Store.step, add_of_writable hr rfl]
        refine ⟨hpush, ?_⟩
        rw [Place.held_file]
        exact hpush
      | false =>
        rw [Store.step, add_of_not_writable hr rfl]
        exact ⟨hpush, h.saved⟩

/-- what holds of all analyses when they are made holds along a run -/
theorem Throughout.run (h : s.Throughout P) (he : ∀ e ∈ events, e.Makes P) : (s.run events).Throughout P := by
  induction events generalizing s with
  | nil => exact h
  | cons e events ih =>
    rw [run_cons]
    exact ih (h.step (he e List.mem_cons_self)) fun e' he' => he e' (List.mem_cons_of_mem _ he')

/-- what is added of an argument is the summary of its test -/
def Event.Tested (limits : Limits) : Event → Prop
  | .add _ arg summary _ => summary = (arg.check limits).summary
  | .reload => True

theorem Event.Tested.makes {limits : Limits} (h : e.Tested limits) : e.Makes (Analysis.Truthful limits) := by
  cases e with
  | reload => trivial
  | add now arg summary writable => exact fun a => Analysis.truthful_of_tested h

/-- **Stored verdicts stay true.** Let a store start where there is nothing to read, and let any events happen to it, writes
that fail among them, each adding the summary of a test under the same limits. Then every analysis, in memory and in the
file, is truthful: testing its argument again gives what was stored, a valid one is entailed, and the stored number of
counterexamples is the number of assignments of the stored atoms that refute the argument. -/
theorem truthful_run (limits : Limits) (p : Place) (hp : p.content = none) (events : List Event)
    (h : ∀ e ∈ events, e.Tested limits) : ((ofPlace p).run events).Throughout (Analysis.Truthful limits) := by
  have hvacant : ∀ x ∈ p.held.analyses, x.Truthful limits := by
    intro x hx
    rw [Place.held, hp] at hx
    cases hx
  exact (Throughout.ofPlace hvacant).run fun e he => (h e he).makes

/-- an argument that is tested and added -/
def Event.testing (limits : Limits) (arg : Argument String) (writable : Bool) : Event :=
  .add .epoch arg (arg.check limits).summary writable

/-- a valid argument, one that is never saved, reloading, a text that is no formula, and an argument with a counterexample -/
def testedEvents : List Event :=
  [.testing .standard ⟨["P", "P -> Q"], some "Q"⟩ true, .testing .standard ⟨["P | Q"], some "P"⟩ false, .reload,
    .testing .standard ⟨["P &"], some "Q"⟩ true, .testing .standard ⟨["P"], some "Q"⟩ false]

theorem truthful_run_testedEvents :
    Place.vacant.content = none ∧ (∀ e ∈ testedEvents, e.Tested .standard) ∧
      ((ofPlace .vacant).run testedEvents).Throughout (Analysis.Truthful .standard) ∧
      (((ofPlace .vacant).run testedEvents).archive.recent 1).map Analysis.argument = [⟨["P"], some "Q"⟩] := by
  have htested : ∀ e ∈ testedEvents, e.Tested .standard := by
    simp only [testedEvents, List.mem_cons, List.not_mem_nil, or_false]
    rintro e (rfl | rfl | rfl | rfl | rfl)
    all_goals first | exact trivial | exact rfl
  refine ⟨rfl, htested, truthful_run .standard .vacant rfl testedEvents htested, ?_⟩
  have hlast (s : Store) :
      ((s.step (.testing .standard ⟨["P"], some "Q"⟩ false)).archive.recent 1).map Analysis.argument =
        [⟨["P"], some "Q"⟩] := by
    rw [Event.testing, archive_step_add (by decide), Archive.recent_push (by decide)]
    rfl
  exact hlast _

end Store

/-- a request to the service adds the summary of a test or nothing, so it leaves all analyses truthful -/
theorem Service.truthful_handle {s : Service} (h : s.store.Throughout (Analysis.Truthful s.limits)) (r : Request) :
    (s.handle r).2.store.Throughout (Analysis.Truthful s.limits) := by
  have hadd (arg : Argument String) :
      (s.store.add s.clock arg (arg.check s.limits).summary).2.Throughout (Analysis.Truthful s.limits) := by
    have htested : (Store.Event.add s.clock arg (arg.check s.limits).summary s.store.place.writable).Tested s.limits := rfl
    exact h.step htested.makes
  rcases s.handle_cases r with heq | heq
  · rw [heq]
    exact h
  · rw [heq]
    rcases s.analyse_cases r with ⟨message, hend⟩ | ⟨arg, -, ⟨body, hend⟩ | ⟨-, hend⟩⟩
    · rw [hend]
      exact h
    · rw [hend]
      exact hadd arg
    · rw [hend]
      exact hadd arg

end Sequitur
