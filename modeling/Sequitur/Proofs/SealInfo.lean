/-
What a seal settles.

The sealed line shows every field of an analysis but the seal. The first six are delimited by the bars behind them,
whatever texts an argument is made of, since numbers, instants and fixed words hold no bar and quoted texts show their own
end. The last three are written as they are: the atoms joined by commas, the number of counterexamples, the explanation.
So all depends on what may stand among the atoms.

- `Analysis.sealInfo_eq_iff`: two analyses share the line when they have the first six fields and the end of it in common;
- `Analysis.sealInfo_eq_iff_of_isWord`: among analyses whose atoms are words, the line settles all fields;
- `Analysis.sealInfo_eq_iff_of_stored`: against a stored analysis, one with any fields at all can have the same line only
  by cutting the same text of atoms into other pieces, and then it does have it.
-/
import Sequitur.Proofs.Canonical
import Sequitur.Proofs.Delimited
import Sequitur.Proofs.Ladder
import Sequitur.Proofs.Runs

namespace Sequitur

/-! ## The delimited fields -/

theorem bar_not_mem_of_isDigit {cs : List Char} (h : ∀ c ∈ cs, c.isDigit = true) : '|' ∉ cs := by
  intro hbar
  exact absurd (h _ hbar) (by decide)

theorem bar_not_mem_padded (w n : Nat) : '|' ∉ padded w n := bar_not_mem_of_isDigit fun _ => isDigit_padded

theorem Instant.bar_not_mem_bareChars (t : Instant) : '|' ∉ t.bareChars := by
  have hyear : '|' ∉ yearChars t.date.year := by
    unfold yearChars
    repeat' split
    all_goals simp [bar_not_mem_padded]
  have hfraction : '|' ∉ fractionChars t.nano := by
    unfold fractionChars
    repeat' split
    all_goals simp [bar_not_mem_padded]
  simp [bareChars, Date.chars, hyear, hfraction, bar_not_mem_padded]

theorem delimited_number : Delimited fun n : UInt64 => Nat.toDigits 10 n.toNat ++ ['|'] := by
  refine delimited_marked ?_ fun n => not_mem_toDigits_decimal rfl n.toNat
  intro m n h
  exact UInt64.toNat_inj.1 (toDigits_decimal_inj h)

theorem delimited_instant : Delimited fun t : Instant => (t.bareChars ++ ['+', '0', '0', ':', '0', '0']) ++ ['|'] := by
  refine delimited_marked ?_ ?_
  · intro t u h
    exact Instant.eq_of_bareChars_eq (List.append_cancel_right h)
  · intro t
    simp [t.bar_not_mem_bareChars]

theorem delimited_truthWord : Delimited fun b : Bool => (truthWord b).toList ++ ['|'] :=
  delimited_marked (by decide) (by decide)

theorem delimited_code : Delimited fun s : Status => s.code.toList ++ ['|'] := by
  refine delimited_marked ?_ ?_
  · intro s t h
    exact Status.code_inj (String.toList_inj.1 h)
  · intro s
    cases s <;> decide

namespace Analysis

/-- the atoms as the line shows them -/
def joinedAtoms (a : Analysis) : List Char := [',', ' '].intercalate (a.summary.atoms.map String.toList)

/-- the end of the line: what is written as it is -/
def sealTail (a : Analysis) : List Char :=
  '[' :: (a.joinedAtoms ++ ']' :: '|' ::
    (Nat.toDigits 10 a.summary.counterexampleCount.toNat ++ '|' :: a.summary.explanation.toList))

theorem toList_sealInfo (a : Analysis) : a.sealInfo.toList =
    "analysis|".toList ++ ((Nat.toDigits 10 a.id.toNat ++ ['|']) ++
      (((a.createdAt.bareChars ++ ['+', '0', '0', ':', '0', '0']) ++ ['|']) ++
        (([] ++ Text.quotedList a.argument.premises ++ ['|']) ++
          (([] ++ Text.quotedOption a.argument.conclusion ++ ['|']) ++
            (((truthWord a.summary.isValid).toList ++ ['|']) ++
              ((a.summary.status.code.toList ++ ['|']) ++ a.sealTail)))))) := by
  have hbar : "|".toList = ['|'] := rfl
  have hopening : "|[".toList = ['|', '['] := rfl
  have hclosing : "]|".toList = [']', '|'] := rfl
  have hcomma : ", ".toList = [',', ' '] := rfl
  unfold sealInfo
  simp only [sealTail, joinedAtoms, Instant.renderOffset, Nat.toString_eq_ofList_toDigits, String.toList_append,
    String.toList_ofList, String.toList_intercalate, hbar, hopening, hclosing, hcomma, List.append_assoc,
    List.cons_append, List.nil_append]

variable {a b : Analysis}

/-- analyses share their line when they agree on the delimited fields and end alike -/
theorem sealInfo_eq_iff : a.sealInfo = b.sealInfo ↔
    (a.id = b.id ∧ a.createdAt = b.createdAt ∧ a.argument.premises = b.argument.premises ∧
      a.argument.conclusion = b.argument.conclusion ∧ a.summary.isValid = b.summary.isValid ∧
      a.summary.status = b.summary.status) ∧ a.sealTail = b.sealTail := by
  rw [← String.toList_inj, toList_sealInfo, toList_sealInfo]
  constructor
  · intro h
    -- the fields come off both lines one after the other
    obtain ⟨hid, h⟩ := delimited_number (List.append_cancel_left h)
    obtain ⟨hcreated, h⟩ := delimited_instant h
    obtain ⟨hpremises, h⟩ := Text.delimited_quotedList.between [] ['|'] h
    obtain ⟨hconclusion, h⟩ := Text.delimited_quotedOption.between [] ['|'] h
    obtain ⟨hvalid, h⟩ := delimited_truthWord h
    obtain ⟨hstatus, htail⟩ := delimited_code h
    exact ⟨⟨hid, hcreated, hpremises, hconclusion, hvalid, hstatus⟩, htail⟩
  · rintro ⟨⟨hid, hcreated, hpremises, hconclusion, hvalid, hstatus⟩, htail⟩
    rw [hid, hcreated, hpremises, hconclusion, hvalid, hstatus, htail]

/-! ## The raw end of the line -/

/-- the end of the line comes apart at its bars if none stands among the atoms -/
theorem sealTail_eq_iff (ha : '|' ∉ a.joinedAtoms) (hb : '|' ∉ b.joinedAtoms) : a.sealTail = b.sealTail ↔
    a.joinedAtoms = b.joinedAtoms ∧ a.summary.counterexampleCount = b.summary.counterexampleCount ∧
      a.summary.explanation = b.summary.explanation := by
  constructor
  · intro h
    have ha' : '|' ∉ a.joinedAtoms ++ [']'] := by simp [ha]
    have hb' : '|' ∉ b.joinedAtoms ++ [']'] := by simp [hb]
    obtain ⟨hatoms, hrest⟩ := eq_of_append_mark ha' hb' (by simpa [sealTail] using h)
    obtain ⟨hcount, hexplanation⟩ := delimited_number (by simpa using hrest)
    exact ⟨List.append_cancel_right hatoms, hcount, String.toList_inj.1 hexplanation⟩
  · rintro ⟨hatoms, hcount, hexplanation⟩
    rw [sealTail, sealTail, hatoms, hcount, hexplanation]

/-- what equal lines settle where no bar stands among the atoms: every field, the atoms only as they are joined -/
theorem sealInfo_eq_iff_of_bar_not_mem (ha : '|' ∉ a.joinedAtoms) (hb : '|' ∉ b.joinedAtoms) :
    a.sealInfo = b.sealInfo ↔ a.joinedAtoms = b.joinedAtoms ∧
      b = { a with summary := { a.summary with atoms := b.summary.atoms }, sealText := b.sealText } := by
  rw [sealInfo_eq_iff, sealTail_eq_iff ha hb]
  obtain ⟨id, createdAt, ⟨premises, conclusion⟩, ⟨isValid, status, atoms, count, explanation⟩, sealText⟩ := a
  obtain ⟨id', createdAt', ⟨premises', conclusion'⟩, ⟨isValid', status', atoms', count', explanation'⟩, sealText'⟩ := b
  constructor
  · rintro ⟨⟨rfl, rfl, rfl, rfl, rfl, rfl⟩, hatoms, rfl, rfl⟩
    exact ⟨hatoms, rfl⟩
  · rintro ⟨hatoms, h⟩
    cases h
    exact ⟨⟨rfl, rfl, rfl, rfl, rfl, rfl⟩, hatoms, rfl, rfl⟩

/-- the bars at the end of the line -/
theorem count_bar_sealTail (a : Analysis) :
    a.sealTail.count '|' = a.joinedAtoms.count '|' + 2 + a.summary.explanation.toList.count '|' := by
  have hdigits : (Nat.toDigits 10 a.summary.counterexampleCount.toNat).count '|' = 0 :=
    List.count_eq_zero.2 (not_mem_toDigits_decimal rfl _)
  simp [sealTail, hdigits]
  omega

/-- whoever has the end of a line with two bars has no bar among the atoms -/
theorem bar_not_mem_of_sealTail_eq (ha : '|' ∉ a.joinedAtoms) (he : '|' ∉ a.summary.explanation.toList)
    (h : b.sealTail = a.sealTail) : '|' ∉ b.joinedAtoms := by
  have hcount := congrArg (List.count '|') h
  rw [count_bar_sealTail, count_bar_sealTail, List.count_eq_zero.2 ha, List.count_eq_zero.2 he] at hcount
  exact List.count_eq_zero.1 (by omega)

/-! ## Atoms that are words -/

theorem pieces_of_isWord (h : ∀ x ∈ a.summary.atoms, isWord x = true) : Pieces (a.summary.atoms.map String.toList) := by
  intro cs hcs
  obtain ⟨x, hx, rfl⟩ := List.mem_map.1 hcs
  constructor
  · obtain ⟨c, ds, hs, -, -⟩ := isWord_iff.1 (h x hx)
    rw [hs]
    exact List.cons_ne_nil c ds
  · exact not_mem_of_isWord (by decide) (h x hx)

theorem bar_not_mem_joinedAtoms (h : ∀ x ∈ a.summary.atoms, isWord x = true) : '|' ∉ a.joinedAtoms := by
  intro hmem
  obtain ⟨cs, hcs, hin⟩ := mem_of_mem_intercalate hmem (by decide)
  obtain ⟨x, hx, rfl⟩ := List.mem_map.1 hcs
  exact not_mem_of_isWord (by decide) (h x hx) hin

/-- **The sealed line settles every field but the seal**, for analyses whose atoms are words: whatever their ids,
instants, texts, flags and counts are, they share the line exactly if they differ in nothing else. -/
theorem sealInfo_eq_iff_of_isWord (a b : Analysis) (ha : ∀ x ∈ a.summary.atoms, isWord x = true)
    (hb : ∀ x ∈ b.summary.atoms, isWord x = true) :
    a.sealInfo = b.sealInfo ↔ b = { a with sealText := b.sealText } := by
  rw [sealInfo_eq_iff_of_bar_not_mem (bar_not_mem_joinedAtoms ha) (bar_not_mem_joinedAtoms hb)]
  constructor
  · rintro ⟨hjoined, h⟩
    have hatoms : a.summary.atoms = b.summary.atoms := by
      have hpieces := eq_of_intercalate_eq (pieces_of_isWord ha) (pieces_of_isWord hb) hjoined
      exact (List.map_inj_right fun _ _ => String.toList_inj.1).1 hpieces
    rw [h, ← hatoms]
  · intro h
    rw [h]
    exact ⟨rfl, rfl⟩

/-- two premises -/
def twoPremises : Analysis :=
  ⟨7, .epoch, ⟨["P", "Q|R"], some "P"⟩, ⟨true, .checked, ["P", "Q", "R"], 0, "in none of 8 | 9"⟩, "sealed"⟩

/-- one premise that is spelled like the two -/
def onePremise : Analysis := { twoPremises with argument := ⟨["P\", \"Q|R"], some "P"⟩ }

theorem sealInfo_eq_iff_of_isWord_twoPremises :
    (∀ x ∈ twoPremises.summary.atoms, isWord x = true) ∧ (∀ x ∈ onePremise.summary.atoms, isWord x = true) ∧
      twoPremises.sealInfo ≠ onePremise.sealInfo ∧ twoPremises.sealInfo = twoPremises.sealed.sealInfo := by
  have htwo : ∀ x ∈ twoPremises.summary.atoms, isWord x = true := by decide
  have hone : ∀ x ∈ onePremise.summary.atoms, isWord x = true := htwo
  have hne : onePremise ≠ { twoPremises with sealText := onePremise.sealText } := by decide
  refine ⟨htwo, hone, ?_, ?_⟩
  · intro h
    exact hne ((sealInfo_eq_iff_of_isWord twoPremises onePremise htwo hone).1 h)
  · exact (sealInfo_eq_iff_of_isWord twoPremises twoPremises.sealed htwo htwo).2 rfl

end Analysis

/-! ## What the checker stores -/

namespace Argument

/-- the atoms in the outcome for texts are names -/
theorem isName_of_mem_atoms {limits : Limits} {arg : Argument String} {x : String}
    (h : x ∈ (check limits arg).atoms) : isName x = true := by
  have hstatus : (check limits arg).status = .checked := by
    by_contra hs
    rw [((ladder_check limits arg).bare hs).2.1] at h
    cases h
  obtain ⟨formulas, c, hread, hc, heq⟩ := exists_of_checked hstatus
  rw [heq, Outcome.atoms, Table.atoms_enumerate] at h
  obtain ⟨f, hf, hx⟩ := mem_atoms.1 h
  have hpart : f ∈ formulas.parts := by rwa [parts, hc]
  obtain ⟨s, -, hs⟩ := hread.exists_part f hpart
  exact Formula.isName_of_parse hs x hx

end Argument

/-- no explanation has a bar in it -/
theorem Outcome.bar_not_mem_explanation (o : Outcome) : '|' ∉ o.explanation.toList := by
  cases o with
  | noPremises => simp [explanation]
  | noConclusion => simp [explanation]
  | malformed _ => simp [explanation]
  | tooManyAtoms count limit => simp [explanation, not_mem_toDigits_decimal (c := '|') rfl]
  | checked t =>
    rw [explanation]
    split
    · simp
    · simp

namespace Analysis

/-- **What the seal of a stored analysis settles.** An argument and the outcome of testing texts are added to a store. Let
`b` be any analysis at all. It has the sealed line of the one that was stored exactly if it differs from it, besides the
seal, only in how the same text of atoms is cut into atoms. -/
theorem sealInfo_eq_iff_of_stored (s : Store) (now : Instant) (arg tested : Argument String) (limits : Limits)
    (a b : Analysis) (h : (s.add now arg (tested.check limits).summary).1 = .ok a) :
    b.sealInfo = a.sealInfo ↔ b.joinedAtoms = a.joinedAtoms ∧
      b = { a with summary := { a.summary with atoms := b.summary.atoms }, sealText := b.sealText } := by
  have hsummary : a.summary = (tested.check limits).summary := by rw [Store.eq_entry_of_add h]; rfl
  have hatoms : ∀ x ∈ a.summary.atoms, isWord x = true := by
    intro x hx
    rw [hsummary] at hx
    have hname : isName x = true := Argument.isName_of_mem_atoms hx
    rw [isName, Bool.and_eq_true] at hname
    exact hname.1
  have hexplanation : '|' ∉ a.summary.explanation.toList := by
    rw [hsummary]
    exact (tested.check limits).bar_not_mem_explanation
  have ha : '|' ∉ a.joinedAtoms := bar_not_mem_joinedAtoms hatoms
  constructor
  · intro heq
    -- of `b` nothing is known, but the end of its line has the two bars that the stored one has
    have hb : '|' ∉ b.joinedAtoms := bar_not_mem_of_sealTail_eq ha hexplanation (sealInfo_eq_iff.1 heq).2
    obtain ⟨hjoined, hrest⟩ := (sealInfo_eq_iff_of_bar_not_mem ha hb).1 heq.symm
    exact ⟨hjoined.symm, hrest⟩
  · rintro ⟨hjoined, hrest⟩
    have hb : '|' ∉ b.joinedAtoms := by rwa [hjoined]
    exact ((sealInfo_eq_iff_of_bar_not_mem ha hb).2 ⟨hjoined.symm, hrest⟩).symm

/-- an argument over two atoms -/
def conjunction : Argument String := ⟨["P & Q"], some "P"⟩

/-- what an empty store makes of it -/
def storedConjunction : Analysis := Archive.empty.entry .epoch conjunction (conjunction.check .standard).summary

/-- the same with one atom in place of the two, spelled like both -/
def mergedConjunction : Analysis :=
  { storedConjunction with summary := { storedConjunction.summary with atoms := ["P, Q"] } }

theorem add_conjunction : ((Store.ofPlace .vacant).add .epoch conjunction (conjunction.check .standard).summary).1 =
    .ok storedConjunction := by
  rw [Store.add_of_writable (by decide) rfl]
  rfl

theorem joinedAtoms_mergedConjunction : mergedConjunction.joinedAtoms = storedConjunction.joinedAtoms := by decide

theorem sealInfo_eq_iff_of_stored_conjunction :
    ((Store.ofPlace .vacant).add .epoch conjunction (conjunction.check .standard).summary).1 = .ok storedConjunction ∧
      { storedConjunction with id := 1 }.sealInfo ≠ storedConjunction.sealInfo ∧
      mergedConjunction.sealInfo = storedConjunction.sealInfo := by
  have hiff (b : Analysis) := sealInfo_eq_iff_of_stored _ _ _ _ _ _ b add_conjunction
  refine ⟨add_conjunction, ?_, ?_⟩
  · intro h
    have hid : (1 : UInt64) = 0 := congrArg Analysis.id ((hiff _).1 h).2
    exact absurd hid (by decide)
  · exact (hiff mergedConjunction).2 ⟨joinedAtoms_mergedConjunction, rfl⟩

/-- **A change that loading does not notice.** The two atoms of a stored analysis are merged into one in the file. The seal
still fits, and the archive that is opened there has the changed analysis. -/
theorem mergedConjunction_is_kept :
    ((Store.ofPlace .vacant).add .epoch conjunction (conjunction.check .standard).summary).1 = .ok storedConjunction ∧
      mergedConjunction.sealInfo = storedConjunction.sealInfo ∧
      mergedConjunction.sealText = storedConjunction.sealText ∧
      storedConjunction.summary.atoms = ["P", "Q"] ∧ mergedConjunction.summary.atoms = ["P, Q"] ∧
      (Archive.ofPlace (.file (Archive.render ⟨1, [mergedConjunction]⟩))).analyses = [mergedConjunction] := by
  have hline : mergedConjunction.sealInfo = storedConjunction.sealInfo := by
    refine sealInfo_eq_iff.2 ⟨⟨rfl, rfl, rfl, rfl, rfl, rfl⟩, ?_⟩
    rw [sealTail, sealTail, joinedAtoms_mergedConjunction]
    rfl
  have hsealed : mergedConjunction.isSealed = true := by
    rw [isSealed, hline]
    exact isSealed_sealed _
  have hsound : Archive.Sound ⟨1, [mergedConjunction]⟩ := by
    constructor
    · intro x hx
      rwa [List.mem_singleton.1 hx]
    · intro x hx
      rw [List.mem_singleton.1 hx]
      decide
  have hopened : Archive.ofPlace (.file (Archive.render ⟨1, [mergedConjunction]⟩)) = ⟨1, [mergedConjunction]⟩ := by
    rw [Archive.ofPlace, ← Place.held, Place.held_file, hsound.trusted_eq]
  refine ⟨add_conjunction, hline, rfl, ?_, rfl, ?_⟩
  · decide
  · rw [hopened]

end Analysis

end Sequitur
