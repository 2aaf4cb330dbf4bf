/-
Which tokens a text is cut into.

A word is an ASCII letter and any ASCII letters, digits and underscores after it; a name is a word that spells no
connective. `Spells` says which spellings a kind has, and `Cursor.Cuts` what one token of a text is, neither of them by the
steps that the lexer takes. `Cursor.Finds` follows the lexer from one cursor to another, so that the tokens of a text can
be put together from those of its parts, whatever stands before and behind them.

- `Cursor.next_of_symbol` and `Cursor.next_of_word`: the token that a symbol or a word in front of the cursor becomes;
- `Cursor.next_eq_token_iff`: one step of the lexer, as a fact about the text;
- `lex_of_finds`: what is found on the way to the end of the text is all that lexing finds;
- `isName_of_mem_lex`: an identifier is always a name.
-/
import Mathlib.Data.List.TakeWhile
import Sequitur.Token.Lexer

namespace Sequitur

open Text

/-- an ASCII letter, then ASCII letters, digits and underscores -/
def isWord (s : String) : Bool :=
  match s.toList with
  | [] => false
  | c :: cs => isWordStart c && cs.all isWordPart

/-- the words that spell a connective -/
def keywords : List String := ["not", "and", "or", "iff"]

/-- a word that can name a variable -/
def isName (s : String) : Bool := isWord s && !keywords.contains s

/-- what each keyword stands for -/
def keywordKinds : List (String × Kind) :=
  [("not", .not), ("and", .connective .and), ("or", .connective .or), ("iff", .connective .equiv)]

/-- the spellings of a kind -/
inductive Spells : String → Kind → Prop where
  | symbol {s : String} {kind : Kind} : (s.toList, kind) ∈ symbols → Spells s kind
  | keyword {s : String} {kind : Kind} : (s, kind) ∈ keywordKinds → Spells s kind
  | name {s : String} : isName s = true → Spells s .ident

/-- blanks and nothing else -/
def IsGap (cs : List Char) : Prop := ∀ c ∈ cs, isBlank c = true

variable {s : String} {c : Char} {cs w lead rest : List Char} {kind : Kind}

/-! ## Words -/

theorem isWord_iff : isWord s = true ↔
    ∃ c cs, s.toList = c :: cs ∧ isWordStart c = true ∧ ∀ d ∈ cs, isWordPart d = true := by
  unfold isWord
  constructor
  · intro h
    split at h
    · cases h
    · rename_i c cs hs
      rw [Bool.and_eq_true, List.all_eq_true] at h
      exact ⟨c, cs, hs, h⟩
  · rintro ⟨c, cs, hs, h⟩
    simp only [hs]
    rw [Bool.and_eq_true, List.all_eq_true]
    exact h

/-- each character of a word can go on a word -/
theorem isWordPart_of_isWord (h : isWord s = true) : ∀ d ∈ s.toList, isWordPart d = true := by
  obtain ⟨c, cs, hs, hc, hcs⟩ := isWord_iff.1 h
  intro d hd
  rw [hs, List.mem_cons] at hd
  rcases hd with rfl | hd
  · exact Cursor.isWordPart_of_isWordStart hc
  · exact hcs d hd

theorem not_mem_of_isWord (hc : isWordPart c = false) (h : isWord s = true) : c ∉ s.toList := by
  intro hmem
  rw [isWordPart_of_isWord h c hmem] at hc
  cases hc

/-- the words that are no names are the keywords of the lexer -/
theorem wordKind_eq_ident_iff : wordKind s.toList = .ident ↔ s ∉ keywords := by
  have hnot : s.toList = ['n', 'o', 't'] ↔ s = "not" := @String.toList_inj s "not"
  have hand : s.toList = ['a', 'n', 'd'] ↔ s = "and" := @String.toList_inj s "and"
  have hor : s.toList = ['o', 'r'] ↔ s = "or" := @String.toList_inj s "or"
  have hiff : s.toList = ['i', 'f', 'f'] ↔ s = "iff" := @String.toList_inj s "iff"
  simp only [wordKind, hnot, hand, hor, hiff, keywords, List.mem_cons, List.not_mem_nil, or_false, not_or]
  split
  · simp [*]
  split
  · simp [*]
  split
  · simp [*]
  split
  · simp [*]
  · simp [*]

/-! ## In front of a cursor -/

/-- a part of a word is no blank -/
theorem isBlank_of_isWordPart (h : isWordPart c = true) : isBlank c = false := by
  have hascii : 32 < c.toNat ∧ c.toNat < 128 := by
    have hcases : ((decide (65 ≤ c.toNat ∧ c.toNat ≤ 90) || (decide (97 ≤ c.toNat) && decide (c.toNat ≤ 122))) ||
        (decide (48 ≤ c.toNat) && decide (c.toNat ≤ 57)) || c == '_') = true := h
    simp only [Bool.or_eq_true, Bool.and_eq_true, decide_eq_true_eq, beq_iff_eq] at hcases
    rcases hcases with hcode | rfl
    · omega
    · decide
  simp only [isBlank, Bool.or_eq_false_iff, Bool.and_eq_false_iff, decide_eq_false_iff_not, beq_eq_false_iff_ne]
  omega

theorem isBlank_of_isWordStart (h : isWordStart c = true) : isBlank c = false :=
  isBlank_of_isWordPart (Cursor.isWordPart_of_isWordStart h)

theorem not_isWordPart_of_isBlank (h : isBlank c = true) : isWordPart c = false := by
  refine Bool.eq_false_iff.2 fun hpart => ?_
  rw [isBlank_of_isWordPart hpart] at h
  cases h

/-- no symbol begins as a word does -/
theorem symbolAt_of_isWordStart (h : isWordStart c = true) : symbolAt (c :: cs) = none := by
  have hsymbols : (symbols.all fun x => x.1.head?.all fun d => !isWordStart d) = true := rfl
  rw [symbolAt, List.find?_eq_none]
  intro x hx hstarts
  obtain ⟨first, tail, hfirst⟩ := List.exists_cons_of_ne_nil (Cursor.symbol_ne_nil hx)
  have hstart : isWordStart first = false := by simpa [hfirst] using List.all_eq_true.1 hsymbols x hx
  rw [hfirst, List.isPrefixOf_iff_prefix, List.cons_prefix_cons] at hstarts
  rw [hstarts.1, h] at hstart
  cases hstart

/-- a symbol is found whatever follows it, since none is the start of another -/
theorem symbolAt_append {x : List Char × Kind} (hx : x ∈ symbols) (rest : List Char) :
    symbolAt (x.1 ++ rest) = some x := by
  simp only [symbols, List.mem_cons, List.not_mem_nil, or_false] at hx
  rcases hx with rfl | rfl | rfl | rfl | rfl | rfl | rfl | rfl | rfl | rfl | rfl | rfl | rfl | rfl <;> rfl

/-- no word goes on here -/
def WordEnds (rest : List Char) : Prop := ∀ c ∈ rest.head?, isWordPart c = false

theorem wordEnds_cons {c : Char} (h : isWordPart c = false) (rest : List Char) : WordEnds (c :: rest) := by
  intro d hd
  cases hd
  exact h

theorem takeWhile_word (hw : ∀ c ∈ w, isWordPart c = true) (he : WordEnds rest) :
    (w ++ rest).takeWhile isWordPart = w := by
  rw [List.takeWhile_append_of_pos hw]
  cases rest with
  | nil => simp
  | cons c rest => simp [he c rfl]

/-- where a word starts, as much as goes on it is a word -/
theorem isWord_takeWhile (h : isWordStart c = true) : isWord (String.ofList ((c :: cs).takeWhile isWordPart)) = true := by
  rw [isWord_iff, String.toList_ofList, List.takeWhile_cons, if_pos (Cursor.isWordPart_of_isWordStart h)]
  exact ⟨c, cs.takeWhile isWordPart, rfl, h, List.all_eq_true.1 List.all_takeWhile⟩

/-- and behind that it ends -/
theorem wordEnds_dropWhile (cs : List Char) : WordEnds (cs.dropWhile isWordPart) := by
  intro c hc
  have hnot := List.head?_dropWhile_not isWordPart cs
  rw [hc] at hnot
  simpa using hnot

/-! ## Spellings -/

/-- a spelling is a symbol, or a word with the kind that the lexer gives it -/
theorem spells_iff : Spells s kind ↔ (s.toList, kind) ∈ symbols ∨ isWord s = true ∧ kind = wordKind s.toList := by
  constructor
  · intro h
    cases h with
    | symbol hs => exact .inl hs
    | keyword hk =>
      simp only [keywordKinds, List.mem_cons, List.not_mem_nil, or_false, Prod.mk.injEq] at hk
      rcases hk with ⟨rfl, rfl⟩ | ⟨rfl, rfl⟩ | ⟨rfl, rfl⟩ | ⟨rfl, rfl⟩ <;> exact .inr (by decide)
    | name hn =>
      rw [isName, Bool.and_eq_true] at hn
      exact .inr ⟨hn.1, (wordKind_eq_ident_iff.2 (by simpa using hn.2)).symm⟩
  · rintro (hs | ⟨hw, rfl⟩)
    · exact .symbol hs
    · by_cases hname : s ∈ keywords
      · simp only [keywords, List.mem_cons, List.not_mem_nil, or_false] at hname
        rcases hname with rfl | rfl | rfl | rfl <;> exact .keyword (by decide)
      · rw [wordKind_eq_ident_iff.2 hname]
        exact .name (by simp [isName, hw, hname])

/-- in a symbol there is neither a blank nor a part of a word -/
theorem not_mem_symbol : ∀ x ∈ symbols, ∀ c ∈ x.1, isBlank c = false ∧ isWordPart c = false := by
  have hsymbols : (symbols.all fun x => x.1.all fun c => !isBlank c && !isWordPart c) = true := rfl
  intro x hx c hc
  simpa using List.all_eq_true.1 (List.all_eq_true.1 hsymbols x hx) c hc

theorem not_isWord_of_symbol (h : (s.toList, kind) ∈ symbols) : isWord s = false := by
  refine Bool.eq_false_iff.2 fun hw => ?_
  obtain ⟨c, cs, hs, hc, -⟩ := isWord_iff.1 hw
  have hpart := (not_mem_symbol _ h c (by rw [hs]; exact List.mem_cons_self)).2
  rw [Cursor.isWordPart_of_isWordStart hc] at hpart
  cases hpart

/-- no spelling starts with a blank -/
theorem Spells.exists_cons (h : Spells s kind) : ∃ c cs, s.toList = c :: cs ∧ isBlank c = false := by
  rcases spells_iff.1 h with hs | ⟨hw, -⟩
  · obtain ⟨c, cs, hcs⟩ := List.exists_cons_of_ne_nil (Cursor.symbol_ne_nil hs)
    exact ⟨c, cs, hcs, (not_mem_symbol _ hs c (by rw [hcs]; exact List.mem_cons_self)).1⟩
  · obtain ⟨c, cs, hs, hc, -⟩ := isWord_iff.1 hw
    exact ⟨c, cs, hs, isBlank_of_isWordStart hc⟩

/-! ## Gaps -/

theorem isGap_takeWhile (cs : List Char) : IsGap (cs.takeWhile isBlank) :=
  List.all_eq_true.1 List.all_takeWhile

/-- blanks go up to where the first spelling starts -/
theorem takeWhile_of_spells (hgap : IsGap lead) (h : Spells s kind) :
    (lead ++ (s.toList ++ rest)).takeWhile isBlank = lead := by
  obtain ⟨c, cs, hs, hc⟩ := h.exists_cons
  rw [List.takeWhile_append_of_pos hgap, hs, List.cons_append, List.takeWhile_cons, hc]
  simp

theorem skipBlanks_of_spells (hgap : IsGap lead) (h : Spells s kind) :
    skipBlanks (lead ++ (s.toList ++ rest)) = s.toList ++ rest := by
  obtain ⟨c, cs, hs, hc⟩ := h.exists_cons
  rw [skipBlanks, List.dropWhile_append_of_pos hgap, hs, List.cons_append, List.dropWhile_cons, hc]
  simp

namespace Cursor

variable {a b d : Cursor} {tokens more : List Token} {t : Token}

/-- behind a spelling stands what stood behind it before -/
theorem rest_advance {cur : Cursor} (h : cur.rest = w ++ rest) : (cur.advance w).rest = rest := by
  simp [advance, h]

/-- a symbol after blanks is the next token -/
theorem next_of_symbol {cur : Cursor} {x : List Char × Kind} (hx : x ∈ symbols)
    (h : skipBlanks cur.rest = x.1 ++ rest) : cur.next = cur.skip.emit x.2 x.1 := by
  have hrest : cur.skip.rest = x.1 ++ rest := h
  rw [next, read]
  split
  · rename_i hnil
    rw [hrest] at hnil
    exact absurd (List.append_eq_nil_iff.1 hnil).1 (symbol_ne_nil hx)
  · rw [hrest, symbolAt_append hx]

/-- a word after blanks is the next token, if no longer word stands there -/
theorem next_of_word {cur : Cursor} (hw : isWord s = true) (he : WordEnds rest)
    (h : skipBlanks cur.rest = s.toList ++ rest) : cur.next = cur.skip.emit (wordKind s.toList) s.toList := by
  have hrest : cur.skip.rest = s.toList ++ rest := h
  have htake := takeWhile_word (isWordPart_of_isWord hw) he
  obtain ⟨first, tail, hfirst, hstart, -⟩ := isWord_iff.1 hw
  rw [next, read, hrest, htake, hfirst, List.cons_append, symbolAt_of_isWordStart hstart]
  simp only [if_pos hstart]

/-! ## One step -/

/-- one token, said of the text alone: blanks, a spelling, and no more of a word behind a word -/
structure Cuts (a : Cursor) (t : Token) (b : Cursor) : Prop where
  exists_lead : ∃ lead, IsGap lead ∧ a.rest = lead ++ (t.spelling.toList ++ b.rest) ∧
    t.position = a.position + byteSize lead
  spells : Spells t.spelling t.kind
  ends : isWord t.spelling = true → WordEnds b.rest
  position_eq : b.position = t.position + byteSize t.spelling.toList

/-- what stands directly at a cursor is cut off there -/
theorem cuts_of_read (h : a.read = .token t b) : ∃ spelling, t = ⟨t.kind, String.ofList spelling, a.position⟩ ∧
    b = a.advance spelling ∧ a.rest = spelling ++ b.rest ∧ Spells (String.ofList spelling) t.kind ∧
    (isWord (String.ofList spelling) = true → WordEnds b.rest) := by
  unfold read at h
  split at h
  · cases h
  · rename_i first tail hrest
    split at h
    · rename_i spelling kind hsym
      obtain ⟨rfl, rfl⟩ := Step.token.inj h
      have hmem : (spelling, kind) ∈ symbols := List.mem_of_find?_eq_some hsym
      have hstarts : spelling.isPrefixOf a.rest = true := by simpa using List.find?_some hsym
      obtain ⟨rest, hspell⟩ := List.isPrefixOf_iff_prefix.1 hstarts
      have hsymbol : ((String.ofList spelling).toList, kind) ∈ symbols := by rwa [String.toList_ofList]
      refine ⟨spelling, rfl, rfl, ?_, .symbol hsymbol, ?_⟩
      · rw [rest_advance hspell.symm, hspell]
      · intro hw
        rw [not_isWord_of_symbol hsymbol] at hw
        cases hw
    · split at h
      · rename_i hstart
        obtain ⟨rfl, rfl⟩ := Step.token.inj h
        have hsplit : a.rest = a.rest.takeWhile isWordPart ++ a.rest.dropWhile isWordPart :=
          List.takeWhile_append_dropWhile.symm
        refine ⟨a.rest.takeWhile isWordPart, rfl, rfl, ?_, ?_, ?_⟩
        · rw [rest_advance hsplit]
          exact hsplit
        · refine spells_iff.2 (.inr ⟨?_, by rw [String.toList_ofList]⟩)
          rw [hrest]
          exact isWord_takeWhile hstart
        · intro _
          rw [rest_advance hsplit]
          exact wordEnds_dropWhile a.rest
      · cases h

/-- what the lexer finds next is cut off the text -/
theorem cuts_of_next (h : a.next = .token t b) : a.Cuts t b := by
  obtain ⟨spelling, ht, hb, hrest, hspells, hends⟩ := cuts_of_read h
  have hsplit : a.rest = a.rest.takeWhile isBlank ++ (spelling ++ b.rest) := by
    rw [← hrest]
    exact List.takeWhile_append_dropWhile.symm
  have hspelling : t.spelling = String.ofList spelling := by rw [ht]
  have hposition : t.position = a.position + byteSize (a.rest.takeWhile isBlank) := by
    rw [ht]
    rfl
  refine ⟨⟨a.rest.takeWhile isBlank, isGap_takeWhile _, ?_, hposition⟩, ?_, ?_, ?_⟩
  · rwa [hspelling, String.toList_ofList]
  · rwa [hspelling]
  · rwa [hspelling]
  · rw [hb, hspelling, String.toList_ofList, hposition]
    rfl

/-- what can be cut off the text is what the lexer finds next -/
theorem Cuts.next_eq (h : a.Cuts t b) : a.next = .token t b := by
  obtain ⟨⟨lead, hlead, hrest, hposition⟩, hspells, hends, hafter⟩ := h
  have hskip : skipBlanks a.rest = t.spelling.toList ++ b.rest := by
    rw [hrest]
    exact skipBlanks_of_spells hlead hspells
  have hpos : a.skip.position = t.position := by
    rw [hposition, skip, hrest, takeWhile_of_spells hlead hspells]
  have hb : a.skip.advance t.spelling.toList = b := by
    have hrest' : (a.skip.advance t.spelling.toList).rest = b.rest := rest_advance hskip
    have hpos' : (a.skip.advance t.spelling.toList).position = b.position := by rw [advance, hpos, hafter]
    exact congrArg₂ Cursor.mk hpos' hrest'
  have hemit : a.skip.emit t.kind t.spelling.toList = .token t b := by
    rw [emit, hb, hpos, String.ofList_toList]
  rcases spells_iff.1 hspells with hs | ⟨hw, hkind⟩
  · rw [next_of_symbol hs hskip]
    exact hemit
  · rw [next_of_word hw (hends hw) hskip, ← hkind]
    exact hemit

/-- **One step of the lexer.** -/
theorem next_eq_token_iff : a.next = .token t b ↔ a.Cuts t b := ⟨cuts_of_next, Cuts.next_eq⟩

/-- nothing is found where only blanks are left -/
theorem next_eq_finished_iff : a.next = .finished ↔ IsGap a.rest := by
  have hall : IsGap a.rest ↔ a.skip.rest = [] := by
    exact List.dropWhile_eq_nil_iff.symm
  rw [hall]
  constructor
  · intro h
    unfold next read at h
    split at h
    · assumption
    · split at h
      · cases h
      · split at h <;> cases h
  · intro h
    rw [next, read, h]

/-! ## From cursor to cursor -/

/-- the tokens that the lexer finds on the way from one cursor to another -/
inductive Finds : Cursor → List Token → Cursor → Prop where
  | refl {a : Cursor} : Finds a [] a
  | step {a b d : Cursor} {t : Token} {tokens : List Token} :
      a.next = .token t b → Finds b tokens d → Finds a (t :: tokens) d

theorem Finds.append (h : Finds a tokens b) (h' : Finds b more d) : Finds a (tokens ++ more) d := by
  induction h with
  | refl => exact h'
  | step hn _ ih => exact .step hn (ih h')

theorem Finds.single (h : a.next = .token t b) : Finds a [t] b := .step h .refl

/-- a way to a place where nothing is left has found everything -/
theorem drain_of_finds (h : Finds a tokens b) (hb : b.next = .finished) (fuel : Nat) (hf : a.rest.length ≤ fuel) :
    a.drain fuel = (⟨tokens, none⟩, b) := by
  induction h generalizing fuel with
  | @refl a =>
    cases fuel with
    | zero => rfl
    | succ fuel => simp only [drain, hb]
  | @step a b d t tokens hn _ ih =>
    have hlt := rest_lt_of_token hn
    cases fuel with
    | zero => omega
    | succ fuel =>
      have hdrain := ih hb fuel (by omega)
      simp only [drain, hn, hdrain]

/-! ## What identifiers are -/

theorem isName_of_next (h : a.next = .token t b) (ht : t.kind = .ident) : isName t.spelling = true := by
  have hsymbols : ∀ x ∈ symbols, x.2 ≠ .ident := by decide
  have hkeywords : ∀ x ∈ keywordKinds, x.2 ≠ .ident := by decide
  have hspells : Spells t.spelling .ident := ht ▸ (next_eq_token_iff.1 h).spells
  cases hspells with
  | symbol hs => exact absurd rfl (hsymbols _ hs)
  | keyword hk => exact absurd rfl (hkeywords _ hk)
  | name hn => exact hn

theorem isName_of_mem_drain (fuel : Nat) (a : Cursor) (h : t ∈ (a.drain fuel).1.tokens) (ht : t.kind = .ident) :
    isName t.spelling = true := by
  induction fuel generalizing a with
  | zero => cases h
  | succ fuel ih =>
    unfold drain at h
    split at h
    · cases h
    · cases h
    · rename_i first after hn
      rcases List.mem_cons.1 h with rfl | h
      · exact isName_of_next hn ht
      · exact ih after h

end Cursor

/-- what is found on the way to the end of a text are its tokens -/
theorem lex_of_finds {text : String} {tokens : List Token} {b : Cursor} (h : Cursor.Finds (.start text) tokens b)
    (hb : b.rest = []) : lex text = ⟨tokens, none⟩ := by
  rw [lex, Cursor.lex, Cursor.drain_of_finds h (Cursor.next_of_rest_nil hb) _ (Nat.le_refl _)]

/-- an identifier is spelled by a name -/
theorem isName_of_mem_lex {text : String} {t : Token} (h : t ∈ (lex text).tokens) (ht : t.kind = .ident) :
    isName t.spelling = true := Cursor.isName_of_mem_drain _ _ h ht

end Sequitur
