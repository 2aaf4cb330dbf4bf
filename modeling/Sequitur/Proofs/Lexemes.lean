/-
The lexical grammar.

A text that can be cut into tokens is a tiling: blanks, and then lexemes, each with the blanks behind it. A lexeme is spelled
by a symbol, a keyword or a name, and two words do not touch. `Tiling.Lawful` says that much and nothing of how the lexer
goes about it; it mentions the table of symbols only as a set.

The lexer takes the longest word and the first symbol that fits. That this is what a lawful tiling has in front comes down
to one fact about each step, `Cursor.next_eq_token_iff`; and no two symbols fit in one place, so the order of their table
never decides.

- `Tiling.Lawful.finds`: the lexer finds the lexemes of a lawful tiling;
- `Cursor.exists_tiling_of_drain`: what the lexer finds to the end of a text is a lawful tiling;
- `tokenize_iff_tiling`: texts and tilings, the only tiling of a text, and other orders of the table.
-/
import Mathlib.Data.List.Chain
import Sequitur.Proofs.Lexing

namespace Sequitur

open Text

/-- a token's spelling, without its place, and the blanks behind it -/
structure Lexeme where
  spelling : String
  kind : Kind
  gap : List Char

def Lexeme.text (x : Lexeme) : List Char := x.spelling.toList ++ x.gap

/-- what a text is cut into -/
structure Tiling where
  /-- the blanks in front -/
  lead : List Char
  lexemes : List Lexeme

namespace Tiling

def text (t : Tiling) : List Char := t.lead ++ t.lexemes.flatMap Lexeme.text

structure Lawful (t : Tiling) : Prop where
  isGap_lead : IsGap t.lead
  isGap_gap : ∀ x ∈ t.lexemes, IsGap x.gap
  spells : ∀ x ∈ t.lexemes, Spells x.spelling x.kind
  /-- between two words there is a blank -/
  apart : t.lexemes.IsChain fun x y => isWord x.spelling = true → isWord y.spelling = true → x.gap ≠ []

/-- lexemes as tokens, the first one at `position` -/
def tokensFrom (position : Nat) : List Lexeme → List Token
  | [] => []
  | x :: xs => ⟨x.kind, x.spelling, position⟩ :: tokensFrom (position + byteSize x.text) xs

/-- the lexemes as tokens, each at its byte offset in the text -/
def tokens (t : Tiling) : List Token := tokensFrom (byteSize t.lead) t.lexemes

end Tiling

variable {lead : List Char}

/-! ## Tilings -/

namespace Tiling

variable {t t' : Tiling} {x : Lexeme} {xs : List Lexeme} {a : Cursor}

theorem text_cons : (Tiling.mk lead (x :: xs)).text = lead ++ (x.spelling.toList ++ (Tiling.mk x.gap xs).text) := by
  simp [text, Lexeme.text]

/-- blanks alone are a tiling -/
theorem Lawful.nil (h : IsGap lead) : (Tiling.mk lead []).Lawful := ⟨h, nofun, nofun, .nil⟩

/-- behind its first lexeme a tiling goes on as a tiling -/
theorem Lawful.tail (h : (Tiling.mk lead (x :: xs)).Lawful) : (Tiling.mk x.gap xs).Lawful where
  isGap_lead := h.isGap_gap x List.mem_cons_self
  isGap_gap y hy := h.isGap_gap y (List.mem_cons_of_mem _ hy)
  spells y hy := h.spells y (List.mem_cons_of_mem _ hy)
  apart := h.apart.tail

/-- a tiling with one lexeme more in front, when what stands behind a word ends it -/
theorem Lawful.cons (hlead : IsGap lead) (hspells : Spells x.spelling x.kind)
    (hends : isWord x.spelling = true → WordEnds (Tiling.mk x.gap xs).text) (h : (Tiling.mk x.gap xs).Lawful) :
    (Tiling.mk lead (x :: xs)).Lawful where
  isGap_lead := hlead
  isGap_gap y hy := by
    rcases List.mem_cons.1 hy with rfl | hy
    · exact h.isGap_lead
    · exact h.isGap_gap y hy
  spells y hy := by
    rcases List.mem_cons.1 hy with rfl | hy
    · exact hspells
    · exact h.spells y hy
  apart := by
    cases xs with
    | nil => exact .singleton x
    | cons y ys =>
      refine List.isChain_cons_cons.2 ⟨fun hx hy hgap => ?_, h.apart⟩
      obtain ⟨c, cs, hcs, hc, -⟩ := isWord_iff.1 hy
      have hnext : (Tiling.mk x.gap (y :: ys)).text = c :: (cs ++ (Tiling.mk y.gap ys).text) := by
        rw [text_cons, hgap, hcs, List.nil_append, List.cons_append]
      have hpart := hends hx c (by rw [hnext]; rfl)
      rw [Cursor.isWordPart_of_isWordStart hc] at hpart
      cases hpart

/-- no blank is left behind the first blanks -/
theorem Lawful.takeWhile_text (h : t.Lawful) : t.text.takeWhile isBlank = t.lead := by
  obtain ⟨lead, lexemes⟩ := t
  cases lexemes with
  | nil =>
    rw [text, List.flatMap_nil, List.append_nil]
    exact List.takeWhile_eq_self_iff.2 h.isGap_lead
  | cons x xs =>
    rw [text_cons]
    exact takeWhile_of_spells h.isGap_lead (h.spells x List.mem_cons_self)

/-- behind a word something stands that ends it -/
theorem Lawful.wordEnds (h : (Tiling.mk lead (x :: xs)).Lawful) (hw : isWord x.spelling = true) :
    WordEnds (Tiling.mk x.gap xs).text := by
  cases hgap : x.gap with
  | cons c gap =>
    have hc : isBlank c = true := h.isGap_gap x List.mem_cons_self c (by rw [hgap]; exact List.mem_cons_self)
    exact wordEnds_cons (not_isWordPart_of_isBlank hc) _
  | nil =>
    cases xs with
    | nil => exact fun c hc => nomatch hc
    | cons y ys =>
      -- the next lexeme touches the word, so it is a symbol
      have hy : ¬ isWord y.spelling = true := fun hword => (List.isChain_cons_cons.1 h.apart).1 hw hword hgap
      rcases spells_iff.1 (h.spells y (by simp)) with hs | ⟨hword, -⟩
      · obtain ⟨c, cs, hcs⟩ := List.exists_cons_of_ne_nil (Cursor.symbol_ne_nil hs)
        have hc : isWordPart c = false := (not_mem_symbol _ hs c (by rw [hcs]; exact List.mem_cons_self)).2
        rw [text_cons, List.nil_append, show y.spelling.toList = c :: cs from hcs]
        exact wordEnds_cons hc _
      · exact absurd hword hy

/-- the lexer cuts the first lexeme off -/
theorem Lawful.cuts (h : (Tiling.mk lead (x :: xs)).Lawful) (ha : a.rest = (Tiling.mk lead (x :: xs)).text) :
    a.Cuts ⟨x.kind, x.spelling, a.position + byteSize lead⟩
      ⟨a.position + byteSize lead + byteSize x.spelling.toList, (Tiling.mk x.gap xs).text⟩ where
  exists_lead := ⟨lead, h.isGap_lead, by rw [ha, text_cons], rfl⟩
  spells := h.spells x List.mem_cons_self
  ends := h.wordEnds
  position_eq := rfl

/-- the lexer finds the lexemes of a lawful tiling, and then nothing -/
theorem Lawful.finds (h : t.Lawful) (ha : a.rest = t.text) :
    ∃ b, a.Finds (tokensFrom (a.position + byteSize t.lead) t.lexemes) b ∧ b.next = .finished := by
  obtain ⟨lead, lexemes⟩ := t
  induction lexemes generalizing lead a with
  | nil =>
    refine ⟨a, .refl, Cursor.next_eq_finished_iff.2 ?_⟩
    rw [ha, text, List.flatMap_nil, List.append_nil]
    exact h.isGap_lead
  | cons x xs ih =>
    let after : Cursor := ⟨a.position + byteSize lead + byteSize x.spelling.toList, (Tiling.mk x.gap xs).text⟩
    have hafter : after.rest = (Tiling.mk x.gap xs).text := rfl
    obtain ⟨b, hfinds, hb⟩ := ih x.gap h.tail hafter
    have hposition : after.position + byteSize x.gap = a.position + byteSize lead + byteSize x.text := by
      rw [Lexeme.text, byteSize_append, Nat.add_assoc]
    rw [hposition] at hfinds
    exact ⟨b, .step (Cursor.next_eq_token_iff.2 (h.cuts ha)) hfinds, hb⟩

/-- a tiling with nothing but blanks is the only one of its text -/
theorem Lawful.lexemes_eq_nil (h : t.Lawful) (hgap : IsGap t.text) : t.lexemes = [] := by
  obtain ⟨lead, lexemes⟩ := t
  cases lexemes with
  | nil => rfl
  | cons x xs =>
    have hfinished := Cursor.next_eq_finished_iff (a := ⟨0, (Tiling.mk lead (x :: xs)).text⟩) |>.2 hgap
    rw [Cursor.next_eq_token_iff.2 (h.cuts rfl)] at hfinished
    cases hfinished

theorem Lawful.lead_eq (h : t.Lawful) (h' : t'.Lawful) (htext : t.text = t'.text) : t.lead = t'.lead := by
  calc t.lead = t.text.takeWhile isBlank := h.takeWhile_text.symm
    _ = t'.text.takeWhile isBlank := by rw [htext]
    _ = t'.lead := h'.takeWhile_text

/-- a lawful tiling is found by cutting its text, so no other one has that text -/
theorem Lawful.unique (h : t.Lawful) (h' : t'.Lawful) (htext : t.text = t'.text) : t = t' := by
  obtain ⟨lead, lexemes⟩ := t
  obtain ⟨lead', lexemes'⟩ := t'
  induction lexemes generalizing lead lead' lexemes' with
  | nil =>
    have hgap : IsGap (Tiling.mk lead' lexemes').text := by
      rw [← htext, text, List.flatMap_nil, List.append_nil]
      exact h.isGap_lead
    obtain rfl : lexemes' = [] := h'.lexemes_eq_nil hgap
    obtain rfl : lead = lead' := h.lead_eq h' htext
    rfl
  | cons x xs ih =>
    cases lexemes' with
    | nil =>
      have hgap : IsGap (Tiling.mk lead (x :: xs)).text := by
        rw [htext, text, List.flatMap_nil, List.append_nil]
        exact h'.isGap_lead
      cases h.lexemes_eq_nil hgap
    | cons y ys =>
      obtain rfl : lead = lead' := h.lead_eq h' htext
      -- both tilings say what the lexer cuts off first
      have hx := Cursor.next_eq_token_iff.2 (h.cuts (a := ⟨0, (Tiling.mk lead (x :: xs)).text⟩) rfl)
      have hy := Cursor.next_eq_token_iff.2 (h'.cuts (a := ⟨0, (Tiling.mk lead (x :: xs)).text⟩) htext)
      obtain ⟨htoken, hafter⟩ := Step.token.inj (hx.symm.trans hy)
      obtain ⟨hkind, hspelling, -⟩ := Token.mk.inj htoken
      have htail : Tiling.mk x.gap xs = Tiling.mk y.gap ys :=
        ih x.gap h.tail y.gap ys h'.tail (Cursor.mk.inj hafter).2
      obtain ⟨hgap, rfl⟩ := Tiling.mk.inj htail
      obtain rfl : x = y := by
        cases x
        cases y
        cases hkind
        cases hspelling
        cases hgap
        rfl
      rfl

end Tiling

/-! ## Texts -/

/-- what the lexer finds to the end of a text is a lawful tiling of it -/
theorem Cursor.exists_tiling_of_drain {fuel : Nat} {a : Cursor} {tokens : List Token}
    (hf : a.rest.length ≤ fuel) (h : (a.drain fuel).1 = ⟨tokens, none⟩) :
    ∃ t : Tiling, t.Lawful ∧ t.text = a.rest ∧ Tiling.tokensFrom (a.position + byteSize t.lead) t.lexemes = tokens := by
  induction fuel generalizing a tokens with
  | zero =>
    have hnil : a.rest = [] := List.length_eq_zero_iff.1 (Nat.le_zero.1 hf)
    obtain ⟨rfl, -⟩ := Lexed.mk.inj h
    exact ⟨⟨[], []⟩, .nil nofun, hnil.symm, rfl⟩
  | succ fuel ih =>
    unfold drain at h
    split at h
    · rename_i hfinished
      obtain ⟨rfl, -⟩ := Lexed.mk.inj h
      exact ⟨⟨a.rest, []⟩, .nil (next_eq_finished_iff.1 hfinished), List.append_nil _, rfl⟩
    · cases h
    · rename_i token after htoken
      have hlt := rest_lt_of_token htoken
      obtain ⟨rfl, hfault⟩ := Lexed.mk.inj h
      have hfound : (drain fuel after).1 = ⟨(drain fuel after).1.tokens, none⟩ :=
        congrArg (Lexed.mk (drain fuel after).1.tokens) hfault
      obtain ⟨t, ht, htext, htokens⟩ := ih (by omega) hfound
      obtain ⟨⟨lead, hlead, hrest, hposition⟩, hspells, hends, hafter⟩ := next_eq_token_iff.1 htoken
      rw [← htext] at hends hrest
      refine ⟨⟨lead, ⟨token.spelling, token.kind, t.lead⟩ :: t.lexemes⟩, ht.cons hlead hspells hends, ?_, ?_⟩
      · rw [Tiling.text_cons, hrest]
      · rw [Tiling.tokensFrom, ← hposition, Lexeme.text, byteSize_append, ← Nat.add_assoc, ← hafter, htokens]

/-! ## Tables in another order -/

variable {table : List (List Char × Kind)}

/-- no two symbols fit in one place, so the first one that fits is the only one -/
theorem find?_symbol_of_perm (hp : table.Perm symbols) (cs : List Char) :
    table.find? (fun s => s.1.isPrefixOf cs) = symbolAt cs := by
  cases hfind : table.find? (fun s => s.1.isPrefixOf cs) with
  | none =>
    rw [List.find?_eq_none] at hfind
    exact (List.find?_eq_none.2 fun x hx => hfind x (hp.mem_iff.2 hx)).symm
  | some x =>
    have hx : x ∈ symbols := hp.mem_iff.1 (List.mem_of_find?_eq_some hfind)
    have hstarts : x.1.isPrefixOf cs = true := by simpa using List.find?_some hfind
    obtain ⟨rest, rfl⟩ := List.isPrefixOf_iff_prefix.1 hstarts
    exact (symbolAt_append hx rest).symm

namespace Cursor

/-- `read` by another table of symbols -/
def readIn (table : List (List Char × Kind)) (a : Cursor) : Step :=
  match a.rest with
  | [] => .finished
  | first :: _ =>
    match table.find? (fun s => s.1.isPrefixOf a.rest) with
    | some (spelling, kind) => a.emit kind spelling
    | none =>
      if isWordStart first then
        let word := a.rest.takeWhile isWordPart
        a.emit (wordKind word) word
      else
        .unknown ⟨a.position, first⟩ (a.advance a.rest)

/-- `drain` by another table of symbols -/
def drainIn (table : List (List Char × Kind)) : (fuel : Nat) → Cursor → Lexed × Cursor
  | 0, a => (⟨[], none⟩, a)
  | fuel + 1, a =>
    match a.skip.readIn table with
    | .finished => (⟨[], none⟩, a)
    | .unknown u after => (⟨[], some u⟩, after)
    | .token t after =>
      let (found, last) := drainIn table fuel after
      (⟨t :: found.tokens, found.fault⟩, last)

theorem readIn_of_perm (hp : table.Perm symbols) (a : Cursor) : a.readIn table = a.read := by
  calc a.readIn table = a.readIn symbols := by
        rw [readIn, readIn, find?_symbol_of_perm hp, find?_symbol_of_perm (.refl symbols)]
    _ = a.read := rfl

theorem drainIn_of_perm (hp : table.Perm symbols) (fuel : Nat) (a : Cursor) : a.drainIn table fuel = a.drain fuel := by
  induction fuel generalizing a with
  | zero => rfl
  | succ fuel ih =>
    have hstep : a.skip.readIn table = a.next := readIn_of_perm hp a.skip
    rw [drainIn, drain, hstep]
    cases a.next with
    | finished => rfl
    | unknown u after => rfl
    | token t after => simp only [ih]

end Cursor

/-- `tokenize` by another table of symbols -/
def tokenizeIn (table : List (List Char × Kind)) (text : String) : Except UnknownChar (List Token) :=
  match ((Cursor.start text).drainIn table text.toList.length).1 with
  | ⟨tokens, none⟩ => .ok tokens
  | ⟨_, some u⟩ => .error u

theorem tokenizeIn_of_perm (hp : table.Perm symbols) (text : String) : tokenizeIn table text = tokenize text := by
  rw [tokenizeIn, Cursor.drainIn_of_perm hp]
  rfl

/-! ## The grammar -/

/-- the tokens of a text are those of a lawful tiling of it -/
theorem tokenize_eq_ok_iff_tiles {text : String} {tokens : List Token} :
    tokenize text = .ok tokens ↔ ∃ t : Tiling, t.Lawful ∧ t.text = text.toList ∧ t.tokens = tokens := by
  rw [tokenize_eq_ok_iff, lex, Cursor.lex]
  have hposition (t : Tiling) :
      Tiling.tokensFrom ((Cursor.start text).position + byteSize t.lead) t.lexemes = t.tokens := by
    rw [Tiling.tokens, Cursor.start, Nat.zero_add]
  constructor
  · intro h
    obtain ⟨t, ht, htext, htokens⟩ := Cursor.exists_tiling_of_drain (Nat.le_refl _) h
    exact ⟨t, ht, htext, by rw [← hposition, htokens]⟩
  · rintro ⟨t, ht, htext, htokens⟩
    obtain ⟨last, hfinds, hlast⟩ := ht.finds (a := .start text) htext.symm
    rw [hposition, htokens] at hfinds
    rw [Cursor.drain_of_finds hfinds hlast _ (Nat.le_refl _)]

/-- **What the lexer accepts.** The tokens of a text are found exactly when the text is blanks and lexemes, each with blanks
behind it, where every lexeme is spelled by a symbol, a keyword or a name and two words do not touch; they are then those
lexemes, each at its byte offset. A text has one such tiling at most, and lexing it by the table of symbols in another
order gives the same result. -/
theorem tokenize_iff_tiling (text : String) :
    (∀ tokens, tokenize text = .ok tokens ↔
      ∃ t : Tiling, t.Lawful ∧ t.text = text.toList ∧ t.tokens = tokens) ∧
    (∀ t t' : Tiling, t.Lawful → t'.Lawful → t.text = text.toList → t'.text = text.toList → t = t') ∧
    (∀ table, table.Perm symbols → tokenizeIn table text = tokenize text) := by
  refine ⟨fun tokens => tokenize_eq_ok_iff_tiles, ?_, fun table hp => tokenizeIn_of_perm hp text⟩
  intro t t' ht ht' htext htext'
  exact ht.unique ht' (htext.trans htext'.symm)

end Sequitur
