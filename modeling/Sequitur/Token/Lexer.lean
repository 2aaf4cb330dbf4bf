/-
The lexer.

A `Cursor` stands somewhere in a text; `next` skips blanks and cuts one token off. A symbol is looked for first, then a
word, which is taken as long as it goes. A character that neither begins is unknown: the cursor then moves to the end of
the text, so nothing is found after it. `lex` takes the steps until nothing is left.

Main statements: `Cursor.rest_lt_of_token` (every token uses some of the text up) and `Cursor.drain_finished` (after
`lex` nothing more is found).
-/
import Sequitur.Token
import Sequitur.Text.Blank

namespace Sequitur

open Text

/-- a character with which no token begins, and its byte offset -/
structure UnknownChar where
  position : Nat
  char : Char
  deriving DecidableEq

/-- where reading stands: the byte offset, and the text still to come -/
structure Cursor where
  position : Nat
  rest : List Char
  deriving DecidableEq

/-- what one step finds -/
inductive Step where
  | finished
  | token (t : Token) (after : Cursor)
  | unknown (u : UnknownChar) (after : Cursor)
  deriving DecidableEq

/-- all tokens of a text, and the unknown character that ended them, if one did -/
structure Lexed where
  tokens : List Token
  fault : Option UnknownChar
  deriving DecidableEq

/-- the first symbol of the table that the text begins with -/
def symbolAt (cs : List Char) : Option (List Char × Kind) :=
  symbols.find? fun s => s.1.isPrefixOf cs

namespace Cursor

def start (text : String) : Cursor := ⟨0, text.toList⟩

/-- moves past blanks -/
def skip (c : Cursor) : Cursor :=
  ⟨c.position + byteSize (c.rest.takeWhile isBlank), skipBlanks c.rest⟩

/-- moves past a spelling -/
def advance (c : Cursor) (spelling : List Char) : Cursor :=
  ⟨c.position + byteSize spelling, c.rest.drop spelling.length⟩

/-- cuts a token off -/
def emit (c : Cursor) (kind : Kind) (spelling : List Char) : Step :=
  .token ⟨kind, String.ofList spelling, c.position⟩ (c.advance spelling)

/-- what stands directly at the cursor -/
def read (c : Cursor) : Step :=
  match c.rest with
  | [] => .finished
  | first :: _ =>
    match symbolAt c.rest with
    | some (spelling, kind) => c.emit kind spelling
    | none =>
      if isWordStart first then
        let word := c.rest.takeWhile isWordPart
        c.emit (wordKind word) word
      else
        .unknown ⟨c.position, first⟩ (c.advance c.rest)

/-- one step: past the blanks, then one token -/
def next (c : Cursor) : Step := c.skip.read

/-- steps until nothing is left; `fuel` bounds their number -/
def drain : (fuel : Nat) → Cursor → Lexed × Cursor
  | 0, c => (⟨[], none⟩, c)
  | fuel + 1, c =>
    match c.next with
    | .finished => (⟨[], none⟩, c)
    | .unknown u after => (⟨[], some u⟩, after)
    | .token t after =>
      let (found, last) := drain fuel after
      (⟨t :: found.tokens, found.fault⟩, last)

/-- all tokens from the cursor on; every step uses up a character, so their number is enough fuel -/
def lex (c : Cursor) : Lexed := (c.drain c.rest.length).1

/-- where the cursor stands when nothing is left -/
def last (c : Cursor) : Cursor := (c.drain c.rest.length).2

theorem skip_rest_le (c : Cursor) : c.skip.rest.length ≤ c.rest.length := by
  simpa [skip, skipBlanks] using (List.dropWhile_sublist isBlank).length_le

theorem symbol_ne_nil {s : List Char × Kind} (h : s ∈ symbols) : s.1 ≠ [] := by
  revert s
  decide

theorem symbolAt_ne_nil {cs : List Char} {s : List Char × Kind} (h : symbolAt cs = some s) : s.1 ≠ [] :=
  symbol_ne_nil (List.mem_of_find?_eq_some h)

theorem advance_rest_lt (c : Cursor) {spelling : List Char} (hs : spelling ≠ []) (hc : c.rest ≠ []) :
    (c.advance spelling).rest.length < c.rest.length := by
  have h1 := List.length_pos_iff.2 hs
  have h2 := List.length_pos_iff.2 hc
  simp only [advance, List.length_drop]
  omega

theorem isWordPart_of_isWordStart {c : Char} (h : isWordStart c = true) : isWordPart c = true := by
  simp only [isWordStart] at h
  simp [isWordPart, Char.isAlphanum, h]

theorem read_rest_lt {c after : Cursor} {t : Token} (h : c.read = .token t after) :
    after.rest.length < c.rest.length := by
  unfold read at h
  split at h
  · cases h
  · rename_i first tail hrest
    have hc : c.rest ≠ [] := by simp [hrest]
    split at h
    · rename_i spelling kind hsym
      obtain ⟨-, rfl⟩ := Step.token.inj h
      exact c.advance_rest_lt (symbolAt_ne_nil hsym) hc
    · split at h
      · rename_i hw
        obtain ⟨-, rfl⟩ := Step.token.inj h
        refine c.advance_rest_lt ?_ hc
        simp [hrest, isWordPart_of_isWordStart hw]
      · cases h

/-- a token uses some of the text up -/
theorem rest_lt_of_token {c after : Cursor} {t : Token} (h : c.next = .token t after) :
    after.rest.length < c.rest.length :=
  Nat.lt_of_lt_of_le (read_rest_lt h) c.skip_rest_le

theorem next_of_rest_nil {c : Cursor} (h : c.rest = []) : c.next = .finished := by
  simp [next, skip, skipBlanks, read, h]

/-- an unknown character ends the text -/
theorem rest_of_unknown {c after : Cursor} {u : UnknownChar} (h : c.next = .unknown u after) : after.rest = [] := by
  unfold next read at h
  split at h
  · cases h
  · split at h
    · cases h
    · split at h
      · cases h
      · obtain ⟨-, rfl⟩ := Step.unknown.inj h
        simp [advance]

theorem drain_finished (fuel : Nat) (c : Cursor) (h : c.rest.length ≤ fuel) :
    (c.drain fuel).2.next = .finished := by
  induction fuel generalizing c with
  | zero => exact next_of_rest_nil (List.length_eq_zero_iff.1 (Nat.le_zero.1 h))
  | succ n ih =>
    unfold drain
    split
    · assumption
    · rename_i u after hn
      exact next_of_rest_nil (rest_of_unknown hn)
    · rename_i t after hn
      exact ih after (by have := rest_lt_of_token hn; omega)

/-- after the last step every further one finds nothing -/
theorem last_finished (c : Cursor) : c.last.next = .finished :=
  drain_finished _ c (Nat.le_refl _)

end Cursor

/-- the tokens of a text -/
def lex (text : String) : Lexed := (Cursor.start text).lex

/-- the tokens of a text whose every character belongs to one -/
def tokenize (text : String) : Except UnknownChar (List Token) :=
  match lex text with
  | ⟨tokens, none⟩ => .ok tokens
  | ⟨_, some u⟩ => .error u

theorem tokenize_eq_ok_iff {text : String} {tokens : List Token} :
    tokenize text = .ok tokens ↔ lex text = ⟨tokens, none⟩ := by
  unfold tokenize
  split
  · rename_i tokens' h
    rw [h]
    simp
  · rename_i h
    rw [h]
    simp

end Sequitur
