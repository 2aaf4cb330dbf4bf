/-
Whether the canonical spelling of a text is read again.

Reading a text and writing the formula out again turns every node of the formula into a negation or a group. A text may
spell a formula as tall as 1024 without nesting at all, as a long chain such as `P & P & P` does, while a text in canonical
spelling nests as deep as its formula is tall and may nest only 128 deep. So what was read is read again exactly up to
height 129.

The height is bounded by what stands in the text: each negation and each connective adds at most one.

- `Grammar.Derives.height_le`: a formula is at most one taller than the text has negations and connectives;
- `parse_chainText`: a chain of any length up to 1024 is read, and is as tall as it is long;
- `parse_render_of_parse`: when the canonical spelling of a text that was read is read again.
-/
import Sequitur.Proofs.Canonical

namespace Sequitur

open Text Sequitur.Grammar Sequitur.Parser

/-! ## Heights -/

/-- a negation or a connective -/
def Kind.isOperator : Kind → Bool
  | .not => true
  | k => k.isBinary

/-- how many negations and connectives a text has -/
def operatorCount (text : String) : Nat := (lex text).tokens.countP fun t => t.kind.isOperator

/-- each node above a leaf takes a token of its own -/
theorem Grammar.Derives.height_le {level : Level} {used : List Token} {f : Formula} {n : Nat}
    (h : Derives level used f n) : f.height ≤ used.countP (fun t => t.kind.isOperator) + 1 := by
  induction h with
  | single _ ih => exact ih
  | @fold op used used' t f g n m _ ht _ ihl ihr =>
    have hop : t.kind.isOperator = true := by rw [ht]; rfl
    rw [Formula.height, List.countP_append, List.countP_cons, if_pos hop]
    omega
  | plain _ ih => exact ih
  | @negate t used f n ht _ ih =>
    have hop : t.kind.isOperator = true := by rw [ht]; rfl
    rw [Formula.height, List.countP_cons, if_pos hop]
    omega
  | var _ => exact Nat.le_add_left _ _
  | @group opened closed used f n _ _ _ ih =>
    rw [List.countP_cons, List.countP_append]
    omega

/-- the formula of a text is at most one taller than the text has operators -/
theorem Formula.height_le_of_parse {text : String} {f : Formula} (h : parse text = .ok f) :
    f.height ≤ operatorCount text + 1 := by
  rw [parse, whole_eq_ok_iff] at h
  obtain ⟨-, n, hd, -, -⟩ := h
  exact hd.height_le

/-! ## Chains -/

/-- `P`, joined by `&` with so many more -/
def chainText : Nat → String
  | 0 => "P"
  | n + 1 => chainText n ++ " & P"

/-- the formula that it spells -/
def Formula.chain : Nat → Formula
  | 0 => .var "P"
  | n + 1 => .bin .and (chain n) (.var "P")

theorem Formula.height_chain (n : Nat) : (chain n).height = n + 1 := by
  induction n with
  | zero => rfl
  | succ n ih =>
    rw [chain, height, ih, height]
    omega

/-- the tokens of a chain do not nest; the rest behind a chain is what it is extended by -/
theorem derives_chainText (n : Nat) {cur : Cursor} {rest : List Char} (he : WordEnds rest)
    (h : skipBlanks cur.rest = (chainText n).toList ++ rest) :
    ∃ tokens last, cur.Finds tokens last ∧ last.rest = rest ∧ Derives (.joined .and) tokens (.chain n) 0 := by
  induction n generalizing rest with
  | zero =>
    obtain ⟨t, last, hfinds, ht, hname, hlast⟩ := finds_name (a := "P") (by decide) he h
    have hvar : Derives .primary [t] (.var t.spelling) 0 := .var ht
    rw [hname] at hvar
    exact ⟨[t], last, hfinds, hlast, .single (.plain hvar)⟩
  | succ n ih =>
    have hspell : skipBlanks cur.rest = (chainText n).toList ++ ' ' :: '&' :: ' ' :: ("P".toList ++ rest) := by
      rw [h]
      simp [chainText]
    obtain ⟨left, atOp, hleft, hop, hd⟩ := ih (wordEnds_cons rfl _) hspell
    have hopspell : skipBlanks atOp.rest = ['&'] ++ ' ' :: ("P".toList ++ rest) := by
      rw [hop]
      rfl
    obtain ⟨t, atRight, ht', ht, hright⟩ := finds_symbol ['&'] (.connective .and) (by decide) hopspell
    have hrightspell : skipBlanks atRight.rest = "P".toList ++ rest := by
      rw [hright]
      rfl
    obtain ⟨u, last, hu', hu, hname, hlast⟩ := finds_name (a := "P") (by decide) he hrightspell
    have hvar : Derives .primary [u] (.var u.spelling) 0 := .var hu
    rw [hname] at hvar
    exact ⟨left ++ t :: [u], last, hleft.append (ht'.append hu'), hlast, .fold hd ht (.plain hvar)⟩

/-- no blank stands before a chain -/
theorem skipBlanks_chainText (n : Nat) : skipBlanks (chainText n).toList = (chainText n).toList := by
  have hstart : ∃ tail, (chainText n).toList = 'P' :: tail := by
    induction n with
    | zero => exact ⟨[], rfl⟩
    | succ n ih =>
      obtain ⟨tail, htail⟩ := ih
      exact ⟨tail ++ " & P".toList, by rw [chainText, String.toList_append, htail, List.cons_append]⟩
  obtain ⟨tail, htail⟩ := hstart
  rw [htail]
  rfl

namespace Formula

/-- a chain is read as long as it is not too tall -/
theorem parse_chainText {n : Nat} (hn : n < 1024) : parse (chainText n) = .ok (chain n) := by
  have hstart : skipBlanks (Cursor.start (chainText n)).rest = (chainText n).toList ++ [] := by
    rw [List.append_nil]
    exact skipBlanks_chainText n
  obtain ⟨tokens, last, hfinds, hlast, hd⟩ := derives_chainText n (by simp [WordEnds]) hstart
  have hheight : (chain n).height ≤ maxHeight := by
    rw [height_chain]
    exact hn
  rw [parse, whole_eq_ok_iff, lex_of_finds hfinds hlast]
  exact ⟨rfl, 0, hd.whole, Nat.zero_le _, hheight⟩

/-! ## Reading again -/

/-- **What was read is read again exactly up to height 129.** Let a text be read as a formula. The canonical spelling of the
formula is read as the same formula if and only if the formula is at most 129 tall, and is too deep for the parser
otherwise. A formula is never more than one taller than its text has negations and connectives, so a text with at most
128 of them has a canonical spelling that is read again. -/
theorem parse_render_of_parse {text : String} {f : Formula} (h : parse text = .ok f) :
    (parse f.render = .ok f ↔ f.height ≤ 129) ∧ (129 < f.height → ∃ p, parse f.render = .error (.tooDeep p)) ∧
      f.height ≤ operatorCount text + 1 := by
  have hnames : ∀ a ∈ f.occurrences, isName a = true := isName_of_parse h
  refine ⟨⟨?_, parse_render_of_height_le hnames⟩, parse_render_of_lt_height hnames, height_le_of_parse h⟩
  intro hread
  rcases Nat.lt_or_ge 129 f.height with hlt | hle
  · obtain ⟨p, hp⟩ := parse_render_of_lt_height hnames hlt
    rw [hread] at hp
    cases hp
  · exact hle

/-- the longest chain that is read again, and the next one -/
theorem parse_render_of_parse_chain :
    parse (chainText 128) = .ok (chain 128) ∧ parse (chain 128).render = .ok (chain 128) ∧
      parse (chainText 129) = .ok (chain 129) ∧ ∃ p, parse (chain 129).render = .error (.tooDeep p) := by
  have hread : parse (chainText 128) = .ok (chain 128) := parse_chainText (by decide)
  have hread' : parse (chainText 129) = .ok (chain 129) := parse_chainText (by decide)
  have hle : (chain 128).height ≤ 129 := Nat.le_of_eq (height_chain 128)
  have hlt : 129 < (chain 129).height := by rw [height_chain]; decide
  exact ⟨hread, (parse_render_of_parse hread).1.2 hle, hread', (parse_render_of_parse hread').2.1 hlt⟩

/-- a chain of 130 variables is read, although its canonical spelling is not -/
theorem canonical_chain_not_read :
    parse (chainText 129) = .ok (chain 129) ∧ parse (chain 129).render ≠ .ok (chain 129) := by
  have hnames : ∀ a ∈ (chain 129).occurrences, isName a = true := isName_of_parse (parse_chainText (by decide))
  have hlt : 129 < (chain 129).height := by rw [height_chain]; decide
  obtain ⟨p, hp⟩ := parse_render_of_lt_height hnames hlt
  refine ⟨parse_chainText (by decide), ?_⟩
  rw [hp]
  exact fun h => by cases h

end Formula

end Sequitur
