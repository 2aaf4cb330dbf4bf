/-
Spellings do not matter.

The parser asks what kind its tokens are, and for the names among them. How a connective is spelled and where a token stands
goes nowhere but into errors. So texts whose tokens agree in kinds and names are read alike, whatever else they differ in:
as one formula, or with errors of one kind, over tokens with one index.

Two runs of the parser are followed side by side. Which tokens correspond is left open (`R`), as long as those that do are
alike; each reader takes tokens that correspond to results that agree (`Respects`), with a lemma for each function of the
parser. In the end the tokens with one index are those that correspond.

- `SyntaxError.Alike` and `Agree`: when errors, and when results, are the same but for spellings and positions;
- `Parser.respects_unary`: readers with any room respect what corresponds;
- `SpelledAlike.readAlike`: texts are read alike;
- `Argument.alike_of_spelledAlike`: and so are arguments, and tested alike.
-/
import Mathlib
import Sequitur.Proofs.Ladder

namespace Sequitur

/-- tokens of one kind; if they are names, of one name -/
structure Token.Alike (t u : Token) : Prop where
  kind_eq : t.kind = u.kind
  name_eq : t.kind = .ident → t.spelling = u.spelling

instance : DecidableRel Token.Alike := fun t u =>
  decidable_of_iff (t.kind = u.kind ∧ (t.kind = .ident → t.spelling = u.spelling))
    ⟨fun h => ⟨h.1, h.2⟩, fun h => ⟨h.kind_eq, h.name_eq⟩⟩

/-- errors of one kind, over tokens that correspond -/
inductive SyntaxError.Alike (R : Token → Token → Prop) : SyntaxError → SyntaxError → Prop where
  | empty : Alike R .empty .empty
  | missingOperand {t u : Token} : R t u →
      Alike R (.missingOperand t.spelling t.position) (.missingOperand u.spelling u.position)
  | unclosed {t u : Token} : R t u → Alike R (.unclosed t.position) (.unclosed u.position)
  | unmatched {t u : Token} : R t u → Alike R (.unmatched t.position) (.unmatched u.position)
  | tooDeep {t u : Token} : R t u → Alike R (.tooDeep t.position) (.tooDeep u.position)
  | expectedEnd {t u : Token} : R t u →
      Alike R (.expectedEnd t.spelling t.position) (.expectedEnd u.spelling u.position)
  | expectedClosing {t u : Token} : R t u →
      Alike R (.expectedClosing t.spelling t.position) (.expectedClosing u.spelling u.position)

/-- two runs that come to results that agree, or to errors that are alike -/
inductive Agree (R : Token → Token → Prop) {α : Type} (A : α → α → Prop) :
    Except SyntaxError α → Except SyntaxError α → Prop where
  | ok {a b : α} : A a b → Agree R A (.ok a) (.ok b)
  | error {e e' : SyntaxError} : e.Alike R e' → Agree R A (.error e) (.error e')

/-- what goes on alike from results that agree agrees -/
theorem Agree.bind {R : Token → Token → Prop} {α β : Type} {A : α → α → Prop} {B : β → β → Prop}
    {first first' : Except SyntaxError α} {second second' : α → Except SyntaxError β} (h : Agree R A first first')
    (hsecond : ∀ a b, A a b → Agree R B (second a) (second' b)) : Agree R B (first >>= second) (first' >>= second') := by
  cases h with
  | ok ha => exact hsecond _ _ ha
  | error he => exact .error he

namespace Parser

/-! ## Readers -/

variable {R : Token → Token → Prop} {t u : Token} {rest rest' : List Token} {read : Reader} {op : Connective}

/-- one subformula, and tokens that correspond after it -/
def Same (R : Token → Token → Prop) (p q : Sub × List Token) : Prop := p.1 = q.1 ∧ List.Forall₂ R p.2 q.2

/-- from tokens that correspond, the reader comes to the same -/
def Respects (R : Token → Token → Prop) (read : Reader) : Prop :=
  ∀ tokens tokens', List.Forall₂ R tokens tokens' → Agree R (Same R) (read tokens) (read tokens')

theorem agree_bounded (f : Formula) (height : Nat) (ht : R t u) :
    Agree R Eq (Sub.bounded f height t.position) (Sub.bounded f height u.position) := by
  by_cases h : height ≤ maxHeight
  · rw [Sub.bounded, Sub.bounded, if_pos h, if_pos h]
    exact .ok rfl
  · rw [Sub.bounded, Sub.bounded, if_neg h, if_neg h]
    exact .error (.tooDeep ht)

/-- one level deeper there is no room, or what reads there respects what corresponds -/
theorem agree_deeper {inner : Option Reader} (hinner : ∀ read, inner = some read → Respects R read) (ht : R t u)
    (hrest : List.Forall₂ R rest rest') :
    Agree R (Same R) (deeper inner t.position rest) (deeper inner u.position rest') := by
  cases inner with
  | none => exact .error (.tooDeep ht)
  | some read => exact hinner read rfl _ _ hrest

section

variable (hR : ∀ {t u : Token}, R t u → t.Alike u)

include hR

theorem agree_operandAfter (ht : R t u) (hrest : List.Forall₂ R rest rest') :
    Agree R Eq (operandAfter none t rest) (operandAfter none u rest') := by
  cases hrest with
  | nil => exact .error (.missingOperand ht)
  | @cons v w _ _ hv _ =>
    rw [operandAfter, operandAfter, ← (hR hv).kind_eq]
    by_cases h : v.kind.startsOperand = true
    · rw [if_pos h, if_pos h]
      exact .ok rfl
    · rw [if_neg h, if_neg h]
      exact .error (.missingOperand ht)

theorem agree_close (ht : R t u) (sub : Sub) (hrest : List.Forall₂ R rest rest') :
    Agree R (Same R) (close none t.position sub rest) (close none u.position sub rest') := by
  cases hrest with
  | nil => exact .error (.unclosed ht)
  | @cons v w _ _ hv hrest =>
    rw [close, close, ← (hR hv).kind_eq]
    by_cases h : v.kind = .closing
    · rw [if_pos h, if_pos h]
      exact .ok ⟨rfl, hrest⟩
    · rw [if_neg h, if_neg h]
      exact .error (.expectedClosing hv)

/-- the loop of a chain; its bounds are tokens that correspond too -/
theorem agree_more (hread : Respects R read) {bound bound' : List Token} (hb : List.Forall₂ R bound bound') (left : Sub)
    (hrest : List.Forall₂ R rest rest') :
    Agree R (Same R) (more none op read bound left rest) (more none op read bound' left rest') := by
  -- the bounds are equally long, so neither run can stop short of the other
  induction hb generalizing left rest rest' with
  | nil => exact .ok ⟨rfl, hrest⟩
  | cons _ _ ih =>
    cases hrest with
    | nil => exact .ok ⟨rfl, .nil⟩
    | @cons t u tail tail' ht htail =>
      rw [more, more, ← (hR ht).kind_eq]
      by_cases h : t.kind = .connective op
      · rw [if_pos h, if_pos h]
        refine (agree_operandAfter hR ht htail).bind ?_
        intro _ _ _
        refine (hread _ _ htail).bind ?_
        rintro ⟨right, after⟩ ⟨_, after'⟩ ⟨rfl, hafter⟩
        refine (agree_bounded _ _ ht).bind ?_
        rintro joined _ rfl
        exact ih joined hafter
      · rw [if_neg h, if_neg h]
        exact .ok ⟨rfl, .cons ht htail⟩

theorem respects_chain (hread : Respects R read) : Respects R (chain none op read) := by
  intro tokens tokens' htokens
  refine (hread _ _ htokens).bind ?_
  rintro ⟨first, after⟩ ⟨_, after'⟩ ⟨rfl, hafter⟩
  exact agree_more hR hread hafter first hafter

theorem respects_formulaOf (hread : Respects R read) : Respects R (formulaOf none read) :=
  respects_chain hR (respects_chain hR (respects_chain hR (respects_chain hR hread)))

theorem respects_unaryOf {inner : Option Reader} (hinner : ∀ read, inner = some read → Respects R read) :
    Respects R (unaryOf none inner) := by
  intro tokens tokens' htokens
  cases htokens with
  | nil => exact .error .empty
  | @cons t u rest rest' ht hrest =>
    have hu := (hR ht).kind_eq.symm
    cases hk : t.kind with
    | ident =>
      have hname := (hR ht).name_eq hk
      simp only [unaryOf, hk, hu.trans hk, hname]
      exact .ok ⟨rfl, hrest⟩
    | connective op =>
      simp only [unaryOf, hk, hu.trans hk]
      exact .error (.missingOperand ht)
    | closing =>
      simp only [unaryOf, hk, hu.trans hk]
      exact .error (.unmatched ht)
    | not =>
      simp only [unaryOf, hk, hu.trans hk]
      refine (agree_operandAfter hR ht hrest).bind ?_
      intro _ _ _
      refine (agree_deeper hinner ht hrest).bind ?_
      rintro ⟨sub, after⟩ ⟨_, after'⟩ ⟨rfl, hafter⟩
      refine (agree_bounded _ _ ht).bind ?_
      rintro negated _ rfl
      exact .ok ⟨rfl, hafter⟩
    | opening =>
      simp only [unaryOf, hk, hu.trans hk]
      have hmap : ∀ read, inner.map (formulaOf none) = some read → Respects R read := by
        intro read hread
        obtain ⟨operand, hoperand, rfl⟩ := Option.map_eq_some_iff.1 hread
        exact respects_formulaOf hR (hinner operand hoperand)
      cases hrest with
      | nil => exact .error (.unclosed ht)
      | @cons v w rest rest' hv hrest =>
        refine (agree_deeper hmap ht (.cons hv hrest)).bind ?_
        rintro ⟨sub, after⟩ ⟨_, after'⟩ ⟨rfl, hafter⟩
        exact agree_close hR ht sub hafter

/-- readers with any room for negations and groups -/
theorem respects_unary (room : Nat) : Respects R (unary none room) := by
  induction room with
  | zero => exact respects_unaryOf hR nofun
  | succ room ih =>
    refine respects_unaryOf hR ?_
    intro read hread
    cases hread
    exact ih

/-- what follows a complete formula -/
theorem agree_finish (f : Formula) (hrest : List.Forall₂ R rest rest') :
    Agree R Eq (finish none f rest) (finish none f rest') := by
  cases hrest with
  | nil => exact .ok rfl
  | @cons t u _ _ ht _ =>
    rw [finish, finish, ← (hR ht).kind_eq]
    by_cases h : t.kind = .closing
    · rw [if_pos h, if_pos h]
      exact .error (.unmatched ht)
    · rw [if_neg h, if_neg h]
      exact .error (.expectedEnd ht)

theorem agree_whole {tokens tokens' : List Token} (h : List.Forall₂ R tokens tokens') :
    Agree R Eq (whole ⟨tokens, none⟩) (whole ⟨tokens', none⟩) := by
  refine (respects_formulaOf hR (respects_unary hR maxNesting) _ _ h).bind ?_
  rintro ⟨sub, after⟩ ⟨_, after'⟩ ⟨rfl, hafter⟩
  exact agree_finish hR sub.formula hafter

end

end Parser

/-! ## Texts -/

/-- tokens with one index in two lists -/
def SameIndex (tokens tokens' : List Token) (t u : Token) : Prop :=
  ∃ i : Nat, tokens[i]? = some t ∧ tokens'[i]? = some u

theorem forall₂_sameIndex {tokens tokens' : List Token} (h : tokens.length = tokens'.length) :
    List.Forall₂ (SameIndex tokens tokens') tokens tokens' :=
  List.forall₂_iff_get.2 ⟨h, fun i hi hi' => ⟨i, List.getElem?_eq_getElem hi, List.getElem?_eq_getElem hi'⟩⟩

theorem alike_of_sameIndex {tokens tokens' : List Token} {t u : Token} (h : List.Forall₂ Token.Alike tokens tokens')
    (hi : SameIndex tokens tokens' t u) : t.Alike u := by
  obtain ⟨i, ht, hu⟩ := hi
  obtain ⟨hlt, rfl⟩ := List.getElem?_eq_some_iff.1 ht
  obtain ⟨hlt', rfl⟩ := List.getElem?_eq_some_iff.1 hu
  exact h.get hlt hlt'

/-- texts whose tokens are alike one by one -/
def SpelledAlike (s s' : String) : Prop :=
  ∃ tokens tokens', tokenize s = .ok tokens ∧ tokenize s' = .ok tokens' ∧ List.Forall₂ Token.Alike tokens tokens'

/-- texts that are one formula, or are refused for the same reason at tokens with one index -/
def ReadAlike (s s' : String) : Prop :=
  ∃ tokens tokens', tokenize s = .ok tokens ∧ tokenize s' = .ok tokens' ∧
    Agree (SameIndex tokens tokens') Eq (Formula.parse s) (Formula.parse s')

/-- texts are read alike if their tokens are -/
theorem SpelledAlike.readAlike {s s' : String} (h : SpelledAlike s s') : ReadAlike s s' := by
  obtain ⟨tokens, tokens', ht, ht', halike⟩ := h
  refine ⟨tokens, tokens', ht, ht', ?_⟩
  rw [Formula.parse, Formula.parse, tokenize_eq_ok_iff.1 ht, tokenize_eq_ok_iff.1 ht']
  exact Parser.agree_whole (alike_of_sameIndex halike) (forall₂_sameIndex halike.length_eq)

theorem ReadAlike.cases {s s' : String} (h : ReadAlike s s') :
    (∃ f, Formula.parse s = .ok f ∧ Formula.parse s' = .ok f) ∨
      ∃ e e', Formula.parse s = .error e ∧ Formula.parse s' = .error e' := by
  obtain ⟨tokens, tokens', -, -, hagree⟩ := h
  generalize Formula.parse s = read at hagree
  generalize Formula.parse s' = read' at hagree
  cases hagree with
  | ok hf => exact .inl ⟨_, rfl, hf ▸ rfl⟩
  | error _ => exact .inr ⟨_, _, rfl, rfl⟩

/-! ## Arguments -/

/-- the texts of two arguments, part for part -/
structure Argument.PartForPart (P : String → String → Prop) (arg arg' : Argument String) : Prop where
  premises : List.Forall₂ P arg.premises arg'.premises
  conclusion : Option.Rel P arg.conclusion arg'.conclusion

/-- one outcome, or two faults in one place -/
def Outcome.Alike (o o' : Outcome) : Prop :=
  o = o' ∨ ∃ fault fault', o = .malformed fault ∧ o' = .malformed fault' ∧ fault.role = fault'.role

namespace Argument

theorem parsePremises_alike {texts texts' : List String} (h : List.Forall₂ ReadAlike texts texts') (index : Nat) :
    (∃ fs, parsePremises index texts = .ok fs ∧ parsePremises index texts' = .ok fs) ∨
      ∃ fault fault', parsePremises index texts = .error fault ∧ parsePremises index texts' = .error fault' ∧
        fault.role = fault'.role := by
  induction h generalizing index with
  | nil => exact .inl ⟨[], rfl, rfl⟩
  | @cons s s' texts texts' hs htexts ih =>
    rcases hs.cases with ⟨f, hf, hf'⟩ | ⟨e, e', he, he'⟩
    · rcases ih (index + 1) with ⟨fs, hfs, hfs'⟩ | ⟨fault, fault', hfault, hfault', hrole⟩
      · refine .inl ⟨f :: fs, ?_, ?_⟩
        · simp only [parsePremises, hf, hfs, Except.map]
        · simp only [parsePremises, hf', hfs', Except.map]
      · refine .inr ⟨fault, fault', ?_, ?_, hrole⟩
        · simp only [parsePremises, hf, hfault, Except.map]
        · simp only [parsePremises, hf', hfault', Except.map]
    · refine .inr ⟨⟨.premise index, s, e⟩, ⟨.premise index, s', e'⟩, ?_, ?_, rfl⟩
      · simp only [parsePremises, he]
      · simp only [parsePremises, he']

theorem parseConclusion_alike {s s' : String} (h : ReadAlike s s') :
    (∃ f, parseConclusion s = .ok f ∧ parseConclusion s' = .ok f) ∨
      ∃ fault fault', parseConclusion s = .error fault ∧ parseConclusion s' = .error fault' ∧
        fault.role = fault'.role := by
  rcases h.cases with ⟨f, hf, hf'⟩ | ⟨e, e', he, he'⟩
  · exact .inl ⟨f, parseConclusion_eq_ok_iff.2 hf, parseConclusion_eq_ok_iff.2 hf'⟩
  · exact .inr ⟨⟨.conclusion, s, e⟩, ⟨.conclusion, s', e'⟩, parseConclusion_eq_error_iff.2 ⟨e, he, rfl⟩,
      parseConclusion_eq_error_iff.2 ⟨e', he', rfl⟩, rfl⟩

/-- what is read alike is tested alike -/
theorem check_alike {arg arg' : Argument String} (h : PartForPart ReadAlike arg arg') (limits : Limits) :
    (check limits arg).Alike (check limits arg') := by
  obtain ⟨premises, conclusion⟩ := arg
  obtain ⟨premises', conclusion'⟩ := arg'
  obtain ⟨hpremises, hconclusion⟩ := h
  have hread := parsePremises_alike hpremises 0
  cases hpremises with
  | nil => exact .inl rfl
  | @cons p p' ps ps' _ _ =>
    cases hconclusion with
    | none => exact .inl rfl
    | some hc =>
      rcases hread with ⟨fs, hfs, hfs'⟩ | ⟨fault, fault', hfault, hfault', hrole⟩
      · rcases parseConclusion_alike hc with ⟨f, hf, hf'⟩ | ⟨fault, fault', hfault, hfault', hrole⟩
        · refine .inl ?_
          simp only [check, hfs, hf, hfs', hf']
        · refine .inr ⟨fault, fault', ?_, ?_, hrole⟩
          · simp only [check, hfs, hfault]
          · simp only [check, hfs', hfault']
      · refine .inr ⟨fault, fault', ?_, ?_, hrole⟩
        · simp only [check, hfault]
        · simp only [check, hfault']

theorem PartForPart.mono {P Q : String → String → Prop} (hPQ : ∀ s s', P s s' → Q s s') {arg arg' : Argument String}
    (h : PartForPart P arg arg') : PartForPart Q arg arg' := by
  refine ⟨h.premises.imp hPQ, ?_⟩
  have hconclusion := h.conclusion
  generalize arg.conclusion = c at hconclusion
  generalize arg'.conclusion = c' at hconclusion
  cases hconclusion with
  | none => exact .none
  | some hc => exact .some (hPQ _ _ hc)

/-- **Only kinds and names matter.** Take two arguments whose texts are cut into tokens of the same kinds, with the same
names. Text for text they are read alike: as one formula, or with errors of one kind, over the tokens with one index. And
under any limits they come to one outcome, or are refused for the formula in one place. -/
theorem alike_of_spelledAlike {arg arg' : Argument String} (h : PartForPart SpelledAlike arg arg') :
    PartForPart ReadAlike arg arg' ∧ ∀ limits, (check limits arg).Alike (check limits arg') := by
  have hread : PartForPart ReadAlike arg arg' := h.mono fun _ _ => SpelledAlike.readAlike
  exact ⟨hread, check_alike hread⟩

/-- an argument in words; its second premise has a group that does not end -/
def inWords : Argument String := ⟨["P and not Q", "R iff (S"], some "P"⟩

/-- the same in symbols, with blanks elsewhere -/
def inSymbols : Argument String := ⟨["P∧~Q", " R\t<=>(S "], some "\nP"⟩

theorem alike_of_spelledAlike_inWords : PartForPart SpelledAlike inWords inSymbols ∧ PartForPart ReadAlike inWords inSymbols ∧
    (check .standard inWords).Alike (check .standard inSymbols) := by
  have hfirst : SpelledAlike "P and not Q" "P∧~Q" := ⟨_, _, rfl, rfl, by decide⟩
  have hsecond : SpelledAlike "R iff (S" " R\t<=>(S " := ⟨_, _, rfl, rfl, by decide⟩
  have hconclusion : SpelledAlike "P" "\nP" := ⟨_, _, rfl, rfl, by decide⟩
  have h : PartForPart SpelledAlike inWords inSymbols := ⟨.cons hfirst (.cons hsecond .nil), .some hconclusion⟩
  obtain ⟨hread, hcheck⟩ := alike_of_spelledAlike h
  exact ⟨h, hread, hcheck .standard⟩

end Argument

end Sequitur
