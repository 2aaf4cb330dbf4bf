/-
The canonical spelling reads back, as far as the parser goes.

In the canonical spelling every node of a formula that is no variable is a negation or a group, so the spelling nests exactly
as deep as the formula is tall. That is why a formula of height 129 is still read and a taller one is not: the parser
runs out of room on the first branch that is too long. The other limit of the parser, on heights, is never met.

`Canonical` lists the tokens of the canonical spelling, kinds and names fixed, positions left open. Two things are
proved of it, one about each stage of reading:

- `canonical_of_render`: the lexer cuts the canonical spelling into these tokens, whatever stands behind it;
- `Canonical.derives` and `Canonical.tooDeep`: these tokens derive the formula, nesting one less deep than it is tall, and a
  reader without that much room gives up for depth.

`Formula.parse_render` puts them together.
-/
import Sequitur.Formula.Printer
import Sequitur.Proofs.Lexing
import Sequitur.Proofs.Recognition

namespace Sequitur

open Text Sequitur.Grammar Sequitur.Parser

/-- the tokens of the canonical spelling of a formula -/
inductive Canonical : Formula → List Token → Prop where
  | var {t : Token} : t.kind = .ident → Canonical (.var t.spelling) [t]
  | not {t : Token} {f : Formula} {tokens : List Token} :
      t.kind = .not → Canonical f tokens → Canonical (.not f) (t :: tokens)
  | bin {opened t closed : Token} {op : Connective} {l r : Formula} {left right : List Token} :
      opened.kind = .opening → Canonical l left → t.kind = .connective op → Canonical r right →
        closed.kind = .closing → Canonical (.bin op l r) (opened :: (left ++ t :: right ++ [closed]))

/-! ## The tokens of the spelling -/

/-- a symbol that stands for a kind, after blanks, is found as the next token -/
theorem finds_symbol {cur : Cursor} {rest : List Char} (spelling : List Char) (kind : Kind)
    (hs : (spelling, kind) ∈ symbols) (h : skipBlanks cur.rest = spelling ++ rest) :
    ∃ t next, cur.Finds [t] next ∧ t.kind = kind ∧ next.rest = rest :=
  ⟨_, _, .single (Cursor.next_of_symbol hs h), rfl, Cursor.rest_advance h⟩

/-- the same for a name that no longer word covers -/
theorem finds_name {cur : Cursor} {a : String} {rest : List Char} (ha : isName a = true) (he : WordEnds rest)
    (h : skipBlanks cur.rest = a.toList ++ rest) :
    ∃ t next, cur.Finds [t] next ∧ t.kind = .ident ∧ t.spelling = a ∧ next.rest = rest := by
  rw [isName, Bool.and_eq_true] at ha
  have hkind : wordKind a.toList = .ident := wordKind_eq_ident_iff.2 (by simpa using ha.2)
  exact ⟨_, _, .single (Cursor.next_of_word ha.1 he h), hkind, String.ofList_toList, Cursor.rest_advance h⟩

theorem symbol_of_connective (op : Connective) : (op.spelling.toList, Kind.connective op) ∈ symbols := by
  cases op <;> decide

/-- no blank stands before a spelling -/
theorem skipBlanks_render {f : Formula} (hf : ∀ a ∈ f.occurrences, isName a = true) (rest : List Char) :
    skipBlanks (f.render.toList ++ rest) = f.render.toList ++ rest := by
  cases f with
  | var a =>
    have ha : isName a = true := hf a (List.mem_singleton.2 rfl)
    rw [isName, Bool.and_eq_true] at ha
    obtain ⟨c, cs, hs, hc, -⟩ := isWord_iff.1 ha.1
    simp [Formula.render, hs, skipBlanks, isBlank_of_isWordStart hc]
  | not f => simp [Formula.render, skipBlanks, show isBlank '¬' = false from rfl]
  | bin op l r => simp [Formula.render, skipBlanks, show isBlank '(' = false from rfl]

/-- the lexer finds the canonical tokens, whatever stands behind the spelling -/
theorem canonical_of_render (f : Formula) (hf : ∀ a ∈ f.occurrences, isName a = true) {cur : Cursor} {rest : List Char}
    (he : WordEnds rest) (h : skipBlanks cur.rest = f.render.toList ++ rest) :
    ∃ tokens last, cur.Finds tokens last ∧ last.rest = rest ∧ Canonical f tokens := by
  induction f generalizing cur rest with
  | var a =>
    obtain ⟨t, last, hfinds, ht, rfl, hlast⟩ := finds_name (hf a (List.mem_singleton.2 rfl)) he h
    exact ⟨[t], last, hfinds, hlast, .var ht⟩
  | not f ih =>
    have hspell : skipBlanks cur.rest = ['¬'] ++ (f.render.toList ++ rest) := by
      rw [h]
      simp [Formula.render]
    have hf' : ∀ a ∈ f.occurrences, isName a = true := hf
    obtain ⟨t, next, hfinds, ht, hnext⟩ := finds_symbol ['¬'] .not (by decide) hspell
    obtain ⟨tokens, last, hrest, hlast, hc⟩ := ih hf' he (by rw [hnext, skipBlanks_render hf'])
    exact ⟨t :: tokens, last, hfinds.append hrest, hlast, .not ht hc⟩
  | bin op l r ihl ihr =>
    have hl : ∀ a ∈ l.occurrences, isName a = true := fun a ha => hf a (List.mem_append_left _ ha)
    have hr : ∀ a ∈ r.occurrences, isName a = true := fun a ha => hf a (List.mem_append_right _ ha)
    -- the five parts in turn, each with the rest of the text behind it
    have hspell : skipBlanks cur.rest =
        ['('] ++ (l.render.toList ++ ' ' :: (op.spelling.toList ++ ' ' :: (r.render.toList ++ ([')'] ++ rest)))) := by
      rw [h]
      simp [Formula.render]
    obtain ⟨opened, atLeft, hopened, ho, hleft⟩ := finds_symbol ['('] .opening (by decide) hspell
    obtain ⟨left, atOp, hl', hop, hcl⟩ := ihl hl (wordEnds_cons rfl _) (by rw [hleft, skipBlanks_render hl])
    have hblank : ∀ cs : List Char, skipBlanks (' ' :: cs) = skipBlanks cs := fun _ => rfl
    have hopspell : skipBlanks atOp.rest =
        op.spelling.toList ++ ' ' :: (r.render.toList ++ ([')'] ++ rest)) := by
      rw [hop, hblank]
      cases op <;> rfl
    obtain ⟨t, atRight, ht', ht, hright⟩ := finds_symbol _ (.connective op) (symbol_of_connective op) hopspell
    obtain ⟨right, atEnd, hr', hend, hcr⟩ := ihr hr (wordEnds_cons rfl _) (by
      rw [hright, hblank, skipBlanks_render hr]
      rfl)
    have hclosespell : skipBlanks atEnd.rest = [')'] ++ rest := by
      rw [hend]
      rfl
    obtain ⟨closed, last, hclosed, hc, hlast⟩ := finds_symbol [')'] .closing (by decide) hclosespell
    refine ⟨_, last, ?_, hlast, .bin ho hcl ht hcr hc⟩
    have hall := hopened.append ((hl'.append (ht'.append hr')).append hclosed)
    simpa using hall

/-! ## Reading the tokens -/

namespace Grammar

variable {fault : Option UnknownChar} {op : Connective} {room : Nat} {tokens rest used : List Token} {f : Formula}
  {n : Nat} {e : SyntaxError}

/-- an operand of any kind can stand alone at each level of joined operands -/
theorem Derives.alone (h : Derives .negation used f n) (op : Connective) : Derives (.joined op) used f n :=
  joined_induction (motive := fun level => Derives level used f n) h (fun _ => .single) op

theorem Derives.asOperand (h : Derives .negation used f n) (op : Connective) : Derives (operand op) used f n :=
  operand_induction (motive := fun level => Derives level used f n) h (fun _ => .single) op

/-- and joined operands are a whole formula -/
theorem Derives.whole (h : Derives (.joined op) used f n) : Derives biconditional used f n :=
  biconditional_of_joined (motive := fun level => Derives level used f n) (fun _ => .single) h

/-- where no operand is read, no chain of them is -/
theorem reader_joined_error (op : Connective) (h : reader fault room (operand op) tokens = .error e) :
    reader fault room (.joined op) tokens = .error e := by
  rw [reader_joined]
  exact chain_of_error h

/-- and none is read as the first of a chain at any level -/
theorem reader_of_unary_error (h : unary fault room tokens = .error e) (level : Level) :
    reader fault room level tokens = .error e := by
  cases level with
  | joined op =>
    exact joined_induction (motive := fun level => reader fault room level tokens = .error e) h reader_joined_error op
  | negation => exact h
  | primary => exact h

/-- where a chain fails, so does the whole formula that begins with it -/
theorem formula_of_reader_error (h : reader fault room (.joined op) tokens = .error e) :
    formula fault room tokens = .error e :=
  biconditional_of_joined (motive := fun level => reader fault room level tokens = .error e) reader_joined_error h

end Grammar

variable {fault : Option UnknownChar} {f : Formula} {tokens : List Token}

/-- the canonical tokens derive their formula, and nest as deep as it is tall above its leaves -/
theorem Canonical.derives (h : Canonical f tokens) : ∃ n, f.height = n + 1 ∧ Derives .negation tokens f n := by
  induction h with
  | var ht => exact ⟨0, rfl, .plain (.var ht)⟩
  | not ht _ ih =>
    obtain ⟨n, hn, hd⟩ := ih
    exact ⟨n + 1, by rw [Formula.height, hn], .negate ht hd⟩
  | bin ho _ ht _ hc ihl ihr =>
    obtain ⟨n, hn, hl⟩ := ihl
    obtain ⟨m, hm, hr⟩ := ihr
    have hfold : Derives biconditional _ _ (max n m) := (Derives.fold (hl.alone _) ht (hr.asOperand _)).whole
    refine ⟨max n m + 1, ?_, .plain (.group ho hfold hc)⟩
    rw [Formula.height, hn, hm]
    omega

/-- where the canonical tokens of the left operand fit, what the right one fails for is what the formula fails for -/
theorem Canonical.formula_error_of_right {l r : Formula} {left right rest : List Token} {t : Token} {op : Connective}
    {room : Nat} {e : SyntaxError} (hl : Canonical l left) (ht : t.kind = .connective op) (hr : Canonical r right)
    (hroom : room < maxNesting) (hfits : l.height ≤ room + 1)
    (hright : unary fault room (right ++ rest) = .error e) :
    formula fault room (left ++ t :: (right ++ rest)) = .error e := by
  obtain ⟨n, hn, hdl⟩ := hl.derives
  obtain ⟨m, -, hdr⟩ := hr.derives
  have hends : Ends (operand op) (t :: (right ++ rest)) := by
    rw [ends_cons]
    intro op' hop'
    rw [ht] at hop'
    cases hop'
    exact Nat.le_of_eq (looseness_operand op)
  have hmax : l.height ≤ maxHeight := by
    simp only [maxNesting, maxHeight] at *
    omega
  have hread : reader fault room (operand op) (left ++ t :: (right ++ rest)) = .ok (measured l, t :: (right ++ rest)) :=
    reader_of_derives (hdl.asOperand op) (by omega) hmax hends.inner (goesOn_of_ends hends)
  have hchain : reader fault room (.joined op) (left ++ t :: (right ++ rest)) = .error e := by
    rw [reader_joined]
    exact chain_of_second_error hread ht (hdr.operandAfter t) (reader_of_unary_error hright _)
  exact formula_of_reader_error hchain

/-- with too little room, reading canonical tokens ends for depth, whatever follows them -/
theorem Canonical.tooDeep (h : Canonical f tokens) (room : Nat) (rest : List Token) (hroom : room ≤ maxNesting)
    (hf : room + 1 < f.height) : ∃ p, unary fault room (tokens ++ rest) = .error (.tooDeep p) := by
  induction h generalizing room rest with
  | var _ =>
    simp only [Formula.height] at hf
    omega
  | @not t f tokens ht hc ih =>
    obtain ⟨n, hn, hd⟩ := hc.derives
    have hafter : operandAfter fault t (tokens ++ rest) = .ok () := hd.operandAfter t
    cases room with
    | zero =>
      refine ⟨t.position, ?_⟩
      simp only [List.cons_append, unary, unaryOf, ht, hafter, bind, Except.bind, deeper]
    | succ less =>
      obtain ⟨p, hp⟩ := ih less rest (by omega) (by simp only [Formula.height] at hf; omega)
      refine ⟨p, ?_⟩
      simp only [List.cons_append, unary, unaryOf, ht, hafter, bind, Except.bind, deeper, hp]
  | @bin opened t closed op l r left right ho hl ht hr hc ihl ihr =>
    have htokens : opened :: (left ++ t :: right ++ [closed]) ++ rest =
        opened :: (left ++ t :: (right ++ closed :: rest)) := by simp
    rw [htokens]
    cases room with
    | zero =>
      refine ⟨opened.position, ?_⟩
      simp [unary, unaryOf, ho, deeper, bind, Except.bind]
    | succ less =>
      -- what stands inside the group fails: at the left operand, or else at the right one behind it
      have hinside : ∃ p, formula fault less (left ++ t :: (right ++ closed :: rest)) = .error (.tooDeep p) := by
        by_cases hleft : less + 1 < l.height
        · obtain ⟨p, hp⟩ := ihl less (t :: (right ++ closed :: rest)) (by omega) hleft
          exact ⟨p, reader_of_unary_error hp biconditional⟩
        · obtain ⟨p, hp⟩ := ihr less (closed :: rest) (by omega) (by simp only [Formula.height] at hf; omega)
          exact ⟨p, hl.formula_error_of_right ht hr (by omega) (by omega) hp⟩
      obtain ⟨p, hp⟩ := hinside
      refine ⟨p, ?_⟩
      have hp' : formulaOf fault (unary fault less) (left ++ t :: (right ++ closed :: rest)) = .error (.tooDeep p) := hp
      simp [unary, unaryOf, ho, deeper, bind, Except.bind, hp']

namespace Formula

/-- the tokens of a whole canonical text -/
theorem canonical_lex_render (f : Formula) (hf : ∀ a ∈ f.occurrences, isName a = true) :
    ∃ tokens, lex f.render = ⟨tokens, none⟩ ∧ Canonical f tokens := by
  have hstart : skipBlanks (Cursor.start f.render).rest = f.render.toList ++ [] := by
    have h := skipBlanks_render hf []
    rw [List.append_nil] at h ⊢
    exact h
  have hends : WordEnds [] := by simp [WordEnds]
  obtain ⟨tokens, last, hfinds, hlast, hc⟩ := canonical_of_render f hf hends hstart
  exact ⟨tokens, lex_of_finds hfinds hlast, hc⟩

theorem parse_render_of_height_le {f : Formula} (hf : ∀ a ∈ f.occurrences, isName a = true) (h : f.height ≤ 129) :
    parse f.render = .ok f := by
  obtain ⟨tokens, hlex, hc⟩ := canonical_lex_render f hf
  obtain ⟨n, hn, hd⟩ := hc.derives
  rw [parse, whole_eq_ok_iff, hlex]
  have hnest : n ≤ maxNesting := by
    simp only [maxNesting]
    omega
  have hheight : f.height ≤ maxHeight := by
    simp only [maxHeight]
    omega
  exact ⟨rfl, n, (hd.alone .equiv), hnest, hheight⟩

theorem parse_render_of_lt_height {f : Formula} (hf : ∀ a ∈ f.occurrences, isName a = true) (h : 129 < f.height) :
    ∃ p, parse f.render = .error (.tooDeep p) := by
  obtain ⟨tokens, hlex, hc⟩ := canonical_lex_render f hf
  have hdeep : ∃ p, unary none maxNesting (tokens ++ []) = .error (.tooDeep p) :=
    hc.tooDeep maxNesting [] (Nat.le_refl _) h
  rw [List.append_nil] at hdeep
  obtain ⟨p, hp⟩ := hdeep
  have hformula : formula none maxNesting tokens = .error (.tooDeep p) := reader_of_unary_error hp biconditional
  refine ⟨p, ?_⟩
  rw [parse, hlex, whole, hformula]
  rfl

/-- **The canonical spelling reads back exactly up to height 129.** Whatever way a formula was built, if a text can spell
all its variables, its canonical spelling is read as the formula itself when the formula is at most 129 tall, and is too
deep for the parser when it is taller. -/
theorem parse_render (f : Formula) (hf : ∀ a ∈ f.occurrences, isName a = true) :
    (f.height ≤ 129 → parse f.render = .ok f) ∧ (129 < f.height → ∃ p, parse f.render = .error (.tooDeep p)) :=
  ⟨parse_render_of_height_le hf, parse_render_of_lt_height hf⟩

/-- so many negations before a variable -/
def negations : Nat → Formula
  | 0 => var "P_1"
  | n + 1 => not (negations n)

theorem height_negations (n : Nat) : (negations n).height = n + 1 := by
  induction n with
  | zero => rfl
  | succ n ih => rw [negations, height, ih]

theorem occurrences_negations (n : Nat) : (negations n).occurrences = ["P_1"] := by
  induction n with
  | zero => rfl
  | succ n ih => exact ih

/-- the last tower of negations that is read, and the first that is not -/
theorem parse_render_negations :
    (∀ a ∈ (negations 128).occurrences, isName a = true) ∧ (negations 128).height ≤ 129 ∧
      parse (negations 128).render = .ok (negations 128) ∧
      (∀ a ∈ (negations 129).occurrences, isName a = true) ∧ 129 < (negations 129).height ∧
      ∃ p, parse (negations 129).render = .error (.tooDeep p) := by
  have hnames (n : Nat) : ∀ a ∈ (negations n).occurrences, isName a = true := by
    rw [occurrences_negations]
    decide
  have hle : (negations 128).height ≤ 129 := Nat.le_of_eq (height_negations 128)
  have hlt : 129 < (negations 129).height := by rw [height_negations]; decide
  exact ⟨hnames 128, hle, (parse_render _ (hnames 128)).1 hle, hnames 129, hlt, (parse_render _ (hnames 129)).2 hlt⟩

/-! ## The names in a formula that was read -/

end Formula

/-- the variables of a derived formula are spelled by identifiers among the tokens -/
theorem Grammar.Derives.exists_ident {level : Level} {used : List Token} {f : Formula} {n : Nat}
    (h : Derives level used f n) : ∀ a ∈ f.occurrences, ∃ t ∈ used, t.kind = .ident ∧ t.spelling = a := by
  induction h with
  | single _ ih => exact ih
  | fold _ _ _ ihl ihr =>
    intro a ha
    rcases List.mem_append.1 ha with ha | ha
    · obtain ⟨t, ht, hident⟩ := ihl a ha
      exact ⟨t, List.mem_append_left _ ht, hident⟩
    · obtain ⟨t, ht, hident⟩ := ihr a ha
      exact ⟨t, List.mem_append_right _ (List.mem_cons_of_mem _ ht), hident⟩
  | plain _ ih => exact ih
  | negate _ _ ih =>
    intro a ha
    obtain ⟨t, ht, hident⟩ := ih a ha
    exact ⟨t, List.mem_cons_of_mem _ ht, hident⟩
  | var ht =>
    intro a ha
    exact ⟨_, List.mem_singleton.2 rfl, ht, (List.mem_singleton.1 ha).symm⟩
  | group _ _ _ ih =>
    intro a ha
    obtain ⟨t, ht, hident⟩ := ih a ha
    exact ⟨t, List.mem_cons_of_mem _ (List.mem_append_left _ ht), hident⟩

/-- a text spells names only -/
theorem Formula.isName_of_parse {text : String} {f : Formula} (h : parse text = .ok f) :
    ∀ a ∈ f.occurrences, isName a = true := by
  rw [parse, whole_eq_ok_iff] at h
  obtain ⟨-, n, hd, -, -⟩ := h
  intro a ha
  obtain ⟨t, ht, hident, rfl⟩ := hd.exists_ident a ha
  exact isName_of_mem_lex ht hident

end Sequitur
