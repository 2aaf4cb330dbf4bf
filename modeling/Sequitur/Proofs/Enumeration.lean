/-
Testing on machine words.

A machine enumerates assignments by a 64-bit word that counts the masks. It shifts the word to get at a bit, and shifts by 64 or
more are not defined; it finds the bit of an atom by halving the list of atoms, and the search is worth nothing unless the list
ascends; and it takes for granted that the search finds every variable it comes across. Reading the formulas it slices their
texts. Each of these steps is partial. Here they are written as such: `testByWords` and `checkByWords` test an argument in this
way, and a step that is not defined ends them with a `Breakdown`.

None ever does, for the atoms are collected from the formulas themselves, in ascending order, and there are at most 24 of them.

- `search_eq`: in an ascending list halving finds the place of a name, and nothing else;
- `Formula.evalWord_eq_truth`: evaluation under a word never breaks off, and gives the classical truth value;
- `Argument.testByWords_eq` and `Argument.checkByWords_eq`: testing on machine words is testing;
- `Argument.never_breaks_off`: both, and what each formula evaluates to in each row.
-/
import Mathlib
import Sequitur.Proofs.Assignments
import Sequitur.Proofs.Entailment
import Sequitur.Proofs.Offsets

namespace Sequitur

/-- how testing could break off -/
inductive Breakdown where
  /-- a word is shifted by its width or more -/
  | shift (amount : Nat)
  /-- a variable is none of the atoms -/
  | unbound (atom : String)
  /-- a slice of a text has an end inside a character -/
  | slice
  deriving DecidableEq

/-! ## Places -/

/-- looks for a name among `size` atoms from place `base` on: the half in which it cannot be is left out -/
def searchFrom (atoms : List String) (a : String) (base size : Nat) : Option Nat :=
  if 1 < size then
    if atoms[base + size / 2]?.any (a < ·) then searchFrom atoms a base (size - size / 2)
    else searchFrom atoms a (base + size / 2) (size - size / 2)
  else if atoms[base]? = some a then some base
  else none
termination_by size

/-- the place of a name in an ascending list -/
def search (atoms : List String) (a : String) : Option Nat := searchFrom atoms a 0 atoms.length

section

variable {atoms : List String} {a : String} {base size i : Nat}

/-- where a name is found it stands -/
theorem getElem?_of_searchFrom (h : searchFrom atoms a base size = some i) : atoms[i]? = some a := by
  fun_induction searchFrom atoms a base size with
  | case1 base size hsize hless ih => exact ih h
  | case2 base size hsize hless ih => exact ih h
  | case3 base size hsize hhere =>
    cases h
    exact hhere
  | case4 base size hsize hhere => cases h

/-- a name that stands in the part looked through is found there -/
theorem searchFrom_of_getElem? (hasc : atoms.Pairwise (· < ·)) (hi : atoms[i]? = some a) (hle : base ≤ i)
    (hlt : i < base + size) (hsize : base + size ≤ atoms.length) : searchFrom atoms a base size = some i := by
  have hbefore : ∀ j k (hj : j < atoms.length) (hk : k < atoms.length), j < k → atoms[j] < atoms[k] :=
    fun j k hj hk => List.pairwise_iff_getElem.1 hasc j k hj hk
  obtain ⟨hia, hat⟩ := List.getElem?_eq_some_iff.1 hi
  fun_induction searchFrom atoms a base size with
  | case1 base size hmore hless ih =>
    have hmid : base + size / 2 < atoms.length := by omega
    have habove : a < atoms[base + size / 2] := by simpa [List.getElem?_eq_getElem hmid] using hless
    -- the name is below the middle one, so it does not stand there or behind
    have hleft : i < base + size / 2 := by
      by_contra hge
      rcases Nat.eq_or_lt_of_le (Nat.not_lt.1 hge) with heq | hgt
      · subst heq
        rw [hat] at habove
        exact String.lt_irrefl a habove
      · have hbelow := hbefore _ _ hmid hia hgt
        rw [hat] at hbelow
        exact String.lt_irrefl a (String.lt_trans habove hbelow)
    exact ih hle (by omega) (by omega)
  | case2 base size hmore hless ih =>
    have hmid : base + size / 2 < atoms.length := by omega
    have hright : base + size / 2 ≤ i := by
      by_contra hlt'
      have habove := hbefore _ _ hia hmid (Nat.not_le.1 hlt')
      rw [hat] at habove
      exact hless (by simpa [List.getElem?_eq_getElem hmid] using habove)
    exact ih hright (by omega) (by omega)
  | case3 base size hfew hhere => congr 1; omega
  | case4 base size hfew hhere =>
    obtain rfl : base = i := by omega
    exact absurd hi hhere

/-- **In an ascending list halving finds what looking through the list finds.** -/
theorem search_eq (hasc : atoms.Pairwise (· < ·)) (a : String) : search atoms a = atoms.idxOf? a := by
  by_cases ha : a ∈ atoms
  · have hlt : atoms.idxOf a < atoms.length := List.idxOf_lt_length_iff.2 ha
    have hplace : atoms[atoms.idxOf a]? = some a := by
      rw [List.getElem?_eq_getElem hlt, List.getElem_idxOf]
    rw [idxOf?_of_mem ha]
    exact searchFrom_of_getElem? hasc hplace (Nat.zero_le _) (by omega) (by omega)
  · have hnone : atoms.idxOf? a = none := List.idxOf?_eq_none_iff.2 ha
    rw [hnone, Option.eq_none_iff_forall_ne_some]
    intro i hi
    exact ha (List.mem_of_getElem? (getElem?_of_searchFrom hi))

end

/-! ## Words -/

/-- a shift to the left, by less than the width -/
def shiftLeft? (x : UInt64) (n : Nat) : Except Breakdown UInt64 :=
  if n < 64 then .ok (x <<< UInt64.ofNat n) else .error (.shift n)

/-- a shift to the right, by less than the width -/
def shiftRight? (x : UInt64) (n : Nat) : Except Breakdown UInt64 :=
  if n < 64 then .ok (x >>> UInt64.ofNat n) else .error (.shift n)

/-- a bit of a word -/
def bit? (mask : UInt64) (i : Nat) : Except Breakdown Bool := do
  let shifted ← shiftRight? mask i
  return shifted &&& 1 == 1

/-- how many assignments so many atoms have, as a word -/
theorem shiftLeft?_one {n : Nat} (h : n < 64) : ∃ count, shiftLeft? 1 n = .ok count ∧ count.toNat = 2 ^ n := by
  refine ⟨_, if_pos h, ?_⟩
  have hlt : 2 ^ n < 2 ^ 64 := Nat.pow_lt_pow_right (by decide) h
  have hn : n % 2 ^ 64 = n := Nat.mod_eq_of_lt (by omega)
  rw [UInt64.toNat_shiftLeft, UInt64.toNat_ofNat', hn, Nat.mod_eq_of_lt h, UInt64.toNat_one, Nat.one_shiftLeft,
    Nat.mod_eq_of_lt hlt]

theorem bit?_of_lt {i : Nat} (h : i < 64) (mask : UInt64) : bit? mask i = .ok (mask.toNat.testBit i) := by
  have hi : i % 2 ^ 64 = i := Nat.mod_eq_of_lt (by omega)
  have hshift : (mask >>> UInt64.ofNat i &&& 1).toNat = mask.toNat >>> i % 2 := by
    rw [UInt64.toNat_and, UInt64.toNat_shiftRight, UInt64.toNat_ofNat', hi, Nat.mod_eq_of_lt h, UInt64.toNat_one,
      Nat.and_one_is_mod]
  have hbit : (mask >>> UInt64.ofNat i &&& 1 == 1) = mask.toNat.testBit i := by
    rw [Nat.testBit_eq_decide_div_mod_eq, ← Nat.shiftRight_eq_div_pow, ← hshift, Bool.eq_iff_iff, beq_iff_eq,
      decide_eq_true_iff, ← UInt64.toNat_inj, UInt64.toNat_one]
  rw [bit?, shiftRight?, if_pos h]
  exact congrArg Except.ok hbit

/-! ## Rows -/

/-- evaluation under the word of a mask; a variable that is not found has no bit -/
def Formula.evalWord (atoms : List String) (mask : UInt64) : Formula → Except Breakdown Bool
  | var a =>
    match search atoms a with
    | some i => bit? mask i
    | none => .error (.unbound a)
  | not f => do
    let b ← f.evalWord atoms mask
    return !b
  | bin op l r => do
    let x ← l.evalWord atoms mask
    let y ← r.evalWord atoms mask
    return op.apply x y

/-- the row of a word -/
def Row.ofWord (premises : List Formula) (conclusion : Formula) (atoms : List String) (mask : UInt64) :
    Except Breakdown Row := do
  let values ← (List.range atoms.length).mapM (bit? mask)
  let truths ← premises.mapM (Formula.evalWord atoms mask)
  let truth ← conclusion.evalWord atoms mask
  return ⟨values, truths, truth⟩

/-- the table of all assignments, counted by a word -/
def Table.byWords (premises : List Formula) (conclusion : Formula) (atoms : List String) : Except Breakdown Table := do
  let count ← shiftLeft? 1 atoms.length
  let rows ← (List.range count.toNat).mapM fun mask => Row.ofWord premises conclusion atoms (UInt64.ofNat mask)
  return ⟨atoms, rows⟩

/-- steps that all succeed are taken one after the other -/
theorem mapM_eq_ok {ε α β : Type} {f : α → Except ε β} {g : α → β} {l : List α} (h : ∀ a ∈ l, f a = .ok (g a)) :
    l.mapM f = .ok (l.map g) := by
  induction l with
  | nil => rfl
  | cons a l ih =>
    rw [List.mapM_cons, h a List.mem_cons_self, ih fun b hb => h b (List.mem_cons_of_mem _ hb)]
    rfl

section

variable {premises : List Formula} {conclusion f : Formula} {atoms : List String} {mask : UInt64}

/-- evaluation under a word never breaks off, and gives the truth value under the interpretation with its number -/
theorem Formula.evalWord_eq_truth (hasc : atoms.Pairwise (· < ·)) (hlen : atoms.length ≤ 64)
    (hf : ∀ a ∈ f.occurrences, a ∈ atoms) :
    f.evalWord atoms mask = .ok (f.truth (interpretationOf atoms mask.toNat)) := by
  induction f with
  | var a =>
    have ha : a ∈ atoms := hf a (List.mem_singleton.2 rfl)
    have hlt : atoms.idxOf a < atoms.length := List.idxOf_lt_length_iff.2 ha
    rw [evalWord, search_eq hasc, idxOf?_of_mem ha, truth_var, interpretationOf_of_mem ha]
    exact bit?_of_lt (by omega) mask
  | not f ih =>
    rw [evalWord, ih hf]
    rfl
  | bin op l r ihl ihr =>
    rw [evalWord, ihl fun a ha => hf a (List.mem_append_left _ ha), ihr fun a ha => hf a (List.mem_append_right _ ha)]
    rfl

/-- the row of a word is that of its mask -/
theorem Row.ofWord_eq (hasc : atoms.Pairwise (· < ·)) (hlen : atoms.length ≤ 64) (hc : Covers atoms premises conclusion) :
    ofWord premises conclusion atoms mask = .ok (ofMask premises conclusion atoms mask.toNat) := by
  have heval : ∀ f ∈ premises ++ [conclusion], f.evalWord atoms mask = .ok (f.holds (maskValue atoms mask.toNat)) := by
    intro f hf
    rw [Formula.evalWord_eq_truth hasc hlen (hc f hf),
      Formula.holds_eq_truth fun a ha => maskValue_eq_interpretationOf (hc f hf a ha)]
  have hvalues : (List.range atoms.length).mapM (bit? mask) = .ok ((List.range atoms.length).map mask.toNat.testBit) := by
    apply mapM_eq_ok
    intro i hi
    exact bit?_of_lt (by have := List.mem_range.1 hi; omega) mask
  have hpremises := mapM_eq_ok fun p hp => heval p (List.mem_append_left _ hp)
  have hconclusion := heval conclusion (List.mem_append_right _ (List.mem_singleton.2 rfl))
  rw [ofWord, hvalues, hpremises, hconclusion]
  rfl

/-- **Counting by a word goes through all masks.** -/
theorem Table.byWords_eq (hasc : atoms.Pairwise (· < ·)) (hlen : atoms.length < 64) (hc : Covers atoms premises conclusion) :
    byWords premises conclusion atoms = .ok (enumerate premises conclusion atoms) := by
  obtain ⟨count, hcount, hsize⟩ := shiftLeft?_one hlen
  have hrows : (List.range count.toNat).mapM (fun mask => Row.ofWord premises conclusion atoms (UInt64.ofNat mask)) =
      .ok (enumerate premises conclusion atoms).rows := by
    rw [rows_enumerate, maskCount_eq, ← show count.toNat = Nat.pow 2 atoms.length from hsize]
    apply mapM_eq_ok
    intro m hm
    have hlt : m < UInt64.size := Nat.lt_trans (List.mem_range.1 hm) count.toNat_lt
    rw [Row.ofWord_eq hasc (by omega) hc, UInt64.toNat_ofNat_of_lt' hlt]
  rw [byWords, hcount]
  simp only [bind, Except.bind, hrows]
  rfl

end

/-! ## Arguments -/

/-- the formula that a text spells, by slices of the text -/
def Formula.parseBySlices (text : String) : Except Breakdown (Except SyntaxError Formula) :=
  match (Tokenizer.start text).drain? text.toList.length with
  | some found => .ok (Parser.whole found)
  | none => .error .slice

namespace Argument

/-- `test` by words -/
def testByWords (limits : Limits) (arg : Argument Formula) : Except Breakdown Outcome :=
  match arg.premises, arg.conclusion with
  | [], _ => .ok .noPremises
  | _ :: _, none => .ok .noConclusion
  | p :: ps, some c => do
    let found := Sequitur.atoms (p :: ps ++ [c])
    if found.length ≤ limits.atomLimit then
      let table ← Table.byWords (p :: ps) c found
      return .checked table
    else return .tooManyAtoms found.length limits.atomLimit

/-- `parsePremises` by slices -/
def parsePremisesBySlices (index : Nat) : List String → Except Breakdown (Except Fault (List Formula))
  | [] => .ok (.ok [])
  | p :: ps => do
    match ← Formula.parseBySlices p with
    | .error e => return .error ⟨.premise index, p, e⟩
    | .ok f =>
      let rest ← parsePremisesBySlices (index + 1) ps
      return rest.map (f :: ·)

/-- `check` by slices and words -/
def checkByWords (limits : Limits) (arg : Argument String) : Except Breakdown Outcome :=
  match arg.premises, arg.conclusion with
  | [], _ => .ok .noPremises
  | _ :: _, none => .ok .noConclusion
  | p :: ps, some c => do
    match ← parsePremisesBySlices 0 (p :: ps) with
    | .error fault => return .malformed fault
    | .ok fs =>
      match ← Formula.parseBySlices c with
      | .error e => return .malformed ⟨.conclusion, c, e⟩
      | .ok f => testByWords limits ⟨fs, some f⟩

end Argument

theorem Formula.parseBySlices_eq (text : String) : parseBySlices text = .ok (parse text) := by
  rw [parseBySlices, Tokenizer.drain?_of_at (Tokenizer.at_start text)]
  rfl

namespace Argument

variable {limits : Limits}

theorem atomLimit_lt : limits.atomLimit < 64 := by
  have hle : limits.atomLimit ≤ 24 := Nat.min_le_right _ _
  omega

theorem testByWords_eq (arg : Argument Formula) : testByWords limits arg = .ok (test limits arg) := by
  obtain ⟨premises, conclusion⟩ := arg
  cases premises with
  | nil => rfl
  | cons p ps =>
    cases conclusion with
    | none => rfl
    | some c =>
      by_cases hle : (Sequitur.atoms (p :: ps ++ [c])).length ≤ limits.atomLimit
      · have htable := Table.byWords_eq (pairwise_atoms _) (Nat.lt_of_le_of_lt hle atomLimit_lt) (covers_atoms (p :: ps) c)
        simp only [testByWords, test, if_pos hle, htable]
        rfl
      · simp only [testByWords, test, if_neg hle]
        rfl

theorem parsePremisesBySlices_eq (index : Nat) (texts : List String) :
    parsePremisesBySlices index texts = .ok (parsePremises index texts) := by
  induction texts generalizing index with
  | nil => rfl
  | cons p ps ih =>
    rw [parsePremisesBySlices, parsePremises, Formula.parseBySlices_eq]
    cases hp : Formula.parse p with
    | error e => rfl
    | ok f =>
      simp only [bind, Except.bind, ih]
      rfl

theorem checkByWords_eq (arg : Argument String) : checkByWords limits arg = .ok (check limits arg) := by
  obtain ⟨premises, conclusion⟩ := arg
  cases premises with
  | nil => rfl
  | cons p ps =>
    cases conclusion with
    | none => rfl
    | some c =>
      simp only [checkByWords, check, parsePremisesBySlices_eq, bind, Except.bind]
      cases hp : parsePremises 0 (p :: ps) with
      | error fault => rfl
      | ok fs =>
        simp only [Formula.parseBySlices_eq, parseConclusion]
        cases hc : Formula.parse c with
        | error e => rfl
        | ok f => exact testByWords_eq _

end Argument

/-! ## Every mask and every formula -/

/-- the table of an outcome can be enumerated by a word, and evaluation never fails, be it by mask or by assignment -/
structure Outcome.Enumerated (o : Outcome) (premises : List Formula) (conclusion : Formula) : Prop where
  status : o.status = .checked
  /-- a bit of a mask is got at by a shift of less than the width -/
  shifts : o.atoms.length < 64
  /-- the number of masks is a word -/
  count : ∃ count, shiftLeft? 1 o.atoms.length = .ok count ∧ count.toNat = 2 ^ o.atoms.length ∧ o.rows.length = count.toNat
  eval : ∀ m (hm : m < o.rows.length), ∀ f ∈ premises ++ [conclusion], ∃ b,
    f.evalWord o.atoms (UInt64.ofNat m) = .ok b ∧ f.eval (maskValue o.atoms m) = .ok b ∧
      f.eval (o.rows[m].assignment o.atoms).value? = .ok b

/-- in each row of a table a formula has one value, by mask as by assignment -/
theorem Table.eval_getElem {premises : List Formula} {conclusion f : Formula} {atoms : List String} {m : Nat}
    (hasc : atoms.Pairwise (· < ·)) (hn : atoms.Nodup) (hc : Covers atoms premises conclusion)
    (hf : f ∈ premises ++ [conclusion]) (hm : m < (enumerate premises conclusion atoms).rows.length) :
    f.eval (maskValue atoms m) = .ok (f.truth (interpretationOf atoms m)) ∧
      f.eval ((enumerate premises conclusion atoms).rows[m].assignment atoms).value? =
        .ok (f.truth (interpretationOf atoms m)) := by
  have hlt : m < maskCount atoms.length := by rwa [length_enumerate] at hm
  have hrow : (enumerate premises conclusion atoms).rows[m] =
      Row.under premises conclusion atoms (interpretationOf atoms m) := by
    rw [← Row.ofMask_maskOf hc, maskOf_interpretationOf hn hlt]
    simp [rows_enumerate]
  refine ⟨Formula.eval_eq_truth fun a ha => maskValue_eq_interpretationOf (hc f hf a ha), ?_⟩
  rw [hrow, Row.assignment_under hasc]
  exact Formula.eval_under (hc f hf)

namespace Argument

/-- **Testing never breaks off.** Over at most `min maxAtoms 24` distinct names all masks can be counted by a word and each bit
got at by a shift; and in each row every formula has one value, found by halving, by mask and by the assignment that the row
stands for. So an argument of formulas is tested on machine words as it is tested, and so is an argument of texts, whatever
their texts and whatever the limits. -/
theorem never_breaks_off (limits : Limits) :
    (∀ (premises : List Formula) (conclusion : Formula), premises ≠ [] →
      ((premises ++ [conclusion]).flatMap Formula.occurrences).toFinset.card ≤ min limits.maxAtoms 24 →
        (test limits ⟨premises, some conclusion⟩).Enumerated premises conclusion) ∧
    (∀ arg, testByWords limits arg = .ok (test limits arg)) ∧
    ∀ arg, checkByWords limits arg = .ok (check limits arg) := by
  refine ⟨fun premises conclusion hne hcount => ?_, testByWords_eq, checkByWords_eq⟩
  have hle : (atoms (premises ++ [conclusion])).length ≤ limits.atomLimit := by
    rw [length_atoms]
    exact hcount
  have hlt : (atoms (premises ++ [conclusion])).length < 64 := Nat.lt_of_le_of_lt hle atomLimit_lt
  have hasc := pairwise_atoms (premises ++ [conclusion])
  have hcov := covers_atoms premises conclusion
  rw [test_eq_checked hne hle]
  constructor
  case status => rfl
  case shifts => exact hlt
  case count =>
    obtain ⟨count, hshift, hsize⟩ := shiftLeft?_one hlt
    refine ⟨count, hshift, hsize, ?_⟩
    rw [Outcome.rows, Table.length_enumerate, maskCount_eq, hsize]
    rfl
  case eval =>
    intro m hm f hf
    obtain ⟨hmask, hassignment⟩ := Table.eval_getElem hasc (nodup_atoms _) hcov hf hm
    have hword : m < UInt64.size := by
      have hrows : m < 2 ^ (atoms (premises ++ [conclusion])).length := by
        rwa [Outcome.rows, Table.length_enumerate, maskCount_eq] at hm
      exact Nat.lt_trans hrows (Nat.pow_lt_pow_right (by decide) hlt)
    refine ⟨_, ?_, hmask, hassignment⟩
    rw [Outcome.atoms, Table.atoms_enumerate, Formula.evalWord_eq_truth hasc (by omega) (hcov f hf),
      UInt64.toNat_ofNat_of_lt' hword]

/-- under the greatest ceiling that a word can hold -/
theorem never_breaks_off_modusPonens :
    modusPonens ≠ [] ∧
      ((modusPonens ++ [Formula.var "Q"]).flatMap Formula.occurrences).toFinset.card ≤ min (UInt64.size - 1) 24 ∧
      (test ⟨UInt64.size - 1⟩ ⟨modusPonens, some (.var "Q")⟩).Enumerated modusPonens (.var "Q") :=
  ⟨by decide, by decide, (never_breaks_off ⟨UInt64.size - 1⟩).1 modusPonens (.var "Q") (by decide) (by decide)⟩

end Argument

end Sequitur
