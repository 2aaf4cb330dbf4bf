/-
The lexer on byte offsets.

The text that a lexer reads is a sequence of bytes, and it stands at an offset into them. Every look at the text is a slice from
one offset to another, and a slice whose ends are not between characters cannot be taken: `slice?` gives nothing then. A
`Tokenizer` works in this way. It is asked for one token at a time, as often as one likes, and any slice that it could not take
would show in its answer.

None ever does. The tokenizer keeps step with a cursor, which holds the rest of the text itself, so its offset is always the
size of the characters before that rest (`Tokenizer.At`). What it answers is then told by the tokens that the lexer finds, and by
the character that stops it, if one does.

- `Tokenizer.next?_of_at`: one call answers as one step of the cursor does, and no slice fails;
- `Cursor.lex_stops`: the tokens of a text lead to where it ends, or to the unknown character;
- `Cursor.Finds.cut`: what is found before a point of the text is found without the text behind it;
- `lex_reports`: every call of the tokenizer, the place and the spelling of each token, and the character it stops at.
-/
import Mathlib
import Sequitur.Proofs.Lexing

namespace Sequitur

open Text

/-- what a call answers: nothing, or a token, or the character that begins none -/
abbrev Tokenizer.Answer := Option (Except UnknownChar Token)

namespace Text

/-- the text from one byte offset to another, if both are between characters -/
def slice? (s : String) (p q : Nat) : Option String :=
  if p ≤ q ∧ String.Pos.Raw.IsValid s ⟨p⟩ ∧ String.Pos.Raw.IsValid s ⟨q⟩ then
    some (String.Pos.Raw.extract s ⟨p⟩ ⟨q⟩)
  else none

variable {s : String} {before part after : List Char} {p q : Nat}

theorem utf8Len_eq (cs : List Char) : String.utf8Len cs = byteSize cs := by
  rw [← String.utf8ByteSize_ofList, ← byteSize_toList, String.toList_ofList]

/-- behind the first characters of a text an offset is between characters -/
theorem isValid_byteSize (h : s.toList = before ++ after) : String.Pos.Raw.IsValid s ⟨byteSize before⟩ := by
  have hs : s = String.ofList before ++ String.ofList after := by
    rw [← String.ofList_append, ← h, String.ofList_toList]
  refine String.Pos.Raw.isValid_iff_exists_append.2 ⟨String.ofList before, String.ofList after, hs, ?_⟩
  rw [String.rawEndPos, ← byteSize_toList, String.toList_ofList]

/-- characters are the slice from the size of those before them to the size of both -/
theorem slice?_append (h : s.toList = before ++ (part ++ after)) (hp : byteSize before = p)
    (hq : byteSize before + byteSize part = q) : slice? s p q = some (String.ofList part) := by
  have hleft : String.Pos.Raw.IsValid s ⟨p⟩ := hp ▸ isValid_byteSize h
  have hright : String.Pos.Raw.IsValid s ⟨q⟩ := by
    rw [← hq, ← byteSize_append]
    exact isValid_byteSize (by rw [h, List.append_assoc])
  have hextract := String.extract_of_valid before part after
  rw [List.append_assoc, ← h, String.ofList_toList, utf8Len_eq, utf8Len_eq, hp, ← hp, hq, hp] at hextract
  rw [slice?, if_pos ⟨by omega, hleft, hright⟩, hextract]

/-- the rest of a text is the slice up to its end -/
theorem slice?_rest (h : s.toList = before ++ after) (hp : byteSize before = p) :
    slice? s p s.utf8ByteSize = some (String.ofList after) := by
  have hend : s.toList = before ++ (after ++ []) := by rwa [List.append_nil]
  refine slice?_append hend hp ?_
  rw [← byteSize_toList, h, byteSize_append]

end Text

/-! ## Calls -/

/-- a text, and the byte offset at which reading stands -/
structure Tokenizer where
  formula : String
  pos : Nat

namespace Tokenizer

def start (text : String) : Tokenizer := ⟨text, 0⟩

/-- moves past blanks, by the bytes that the rest of the text has less without them -/
def skip? (t : Tokenizer) : Option Tokenizer := do
  let rest ← slice? t.formula t.pos t.formula.utf8ByteSize
  return { t with pos := t.pos + (byteSize rest.toList - byteSize (skipBlanks rest.toList)) }

/-- cuts a token of so many bytes off -/
def emit? (t : Tokenizer) (kind : Kind) (len : Nat) : Option (Answer × Tokenizer) := do
  let spelling ← slice? t.formula t.pos (t.pos + len)
  return (some (.ok ⟨kind, spelling, t.pos⟩), { t with pos := t.pos + len })

/-- what stands directly at the offset -/
def read? (t : Tokenizer) : Option (Answer × Tokenizer) := do
  let rest ← slice? t.formula t.pos t.formula.utf8ByteSize
  match rest.toList with
  | [] => return (none, t)
  | first :: _ =>
    match symbolAt rest.toList with
    | some (spelling, kind) => t.emit? kind (byteSize spelling)
    | none =>
      if isWordStart first then
        let len := byteSize (rest.toList.takeWhile isWordPart)
        let word ← slice? rest 0 len
        t.emit? (wordKind word.toList) len
      else
        return (some (.error ⟨t.pos, first⟩), { t with pos := t.formula.utf8ByteSize })

/-- one call; nothing if a slice could not be taken -/
def next? (t : Tokenizer) : Option (Answer × Tokenizer) := t.skip?.bind read?

/-- the answer to a call after so many others -/
def call? : (before : Nat) → Tokenizer → Option Answer
  | 0, t => t.next?.map Prod.fst
  | k + 1, t => t.next?.bind fun called => call? k called.2

/-- calls until there is nothing more to be had; `fuel` bounds their number -/
def drain? : (fuel : Nat) → Tokenizer → Option Lexed
  | 0, _ => some ⟨[], none⟩
  | fuel + 1, t => do
    match ← t.next? with
    | (none, _) => return ⟨[], none⟩
    | (some (.error u), _) => return ⟨[], some u⟩
    | (some (.ok token), t) =>
      let found ← drain? fuel t
      return ⟨token :: found.tokens, found.fault⟩

end Tokenizer

/-- what a step answers -/
def Step.answer : Step → Tokenizer.Answer
  | .finished => none
  | .token t _ => some (.ok t)
  | .unknown u _ => some (.error u)

/-- where a cursor stands after a step, which leaves it where it was if nothing was found -/
def Step.cursor (stay : Cursor) : Step → Cursor
  | .finished => stay
  | .token _ b => b
  | .unknown _ b => b

/-- where a cursor stands after a call, which moves past blanks in any case -/
def Cursor.after (a : Cursor) : Cursor := a.next.cursor a.skip

/-! ## In step with a cursor -/

namespace Tokenizer

variable {t : Tokenizer} {a : Cursor} {spelling more : List Char} {kind : Kind}

/-- the tokenizer stands where the cursor does, behind the characters that are not in the cursor's rest -/
structure At (t : Tokenizer) (a : Cursor) : Prop where
  pos_eq : t.pos = a.position
  exists_before : ∃ before, t.formula.toList = before ++ a.rest ∧ byteSize before = a.position

theorem at_start (text : String) : (start text).At (.start text) := ⟨rfl, [], rfl, rfl⟩

/-- the rest of the text can be sliced off -/
theorem At.slice?_eq (h : t.At a) : slice? t.formula t.pos t.formula.utf8ByteSize = some (String.ofList a.rest) := by
  obtain ⟨before, htext, hsize⟩ := h.exists_before
  exact slice?_rest htext (hsize.trans h.pos_eq.symm)

/-- both move on past the same characters -/
theorem At.move (h : t.At a) (hrest : a.rest = spelling ++ more) :
    Tokenizer.At { t with pos := t.pos + byteSize spelling } ⟨a.position + byteSize spelling, more⟩ := by
  obtain ⟨before, htext, hsize⟩ := h.exists_before
  refine ⟨by simp [h.pos_eq], before ++ spelling, ?_, ?_⟩
  · rw [htext, hrest, List.append_assoc]
  · rw [byteSize_append, hsize]

theorem At.skip (h : t.At a) : ∃ u, t.skip? = some u ∧ u.At a.skip := by
  have hsplit : a.rest = a.rest.takeWhile isBlank ++ skipBlanks a.rest := List.takeWhile_append_dropWhile.symm
  have hsize : byteSize a.rest - byteSize (skipBlanks a.rest) = byteSize (a.rest.takeWhile isBlank) := by
    have hsum := congrArg byteSize hsplit
    rw [byteSize_append] at hsum
    omega
  refine ⟨_, ?_, h.move hsplit⟩
  rw [skip?, h.slice?_eq]
  simp [hsize]

theorem At.emit (h : t.At a) (hrest : a.rest = spelling ++ more) :
    ∃ u, t.emit? kind (byteSize spelling) = some ((a.emit kind spelling).answer, u) ∧ u.At (a.advance spelling) := by
  obtain ⟨before, htext, hsize⟩ := h.exists_before
  have hslice : slice? t.formula t.pos (t.pos + byteSize spelling) = some (String.ofList spelling) := by
    have hsplit : t.formula.toList = before ++ (spelling ++ more) := by rw [htext, hrest]
    refine slice?_append hsplit ?_ ?_
    · rw [hsize, h.pos_eq]
    · rw [hsize, h.pos_eq]
  refine ⟨{ t with pos := t.pos + byteSize spelling }, ?_, ?_⟩
  · rw [emit?, hslice, h.pos_eq]
    rfl
  · have hafter : a.advance spelling = ⟨a.position + byteSize spelling, more⟩ := by
      simp [Cursor.advance, hrest]
    rw [hafter]
    exact h.move hrest

/-- what stands directly at an offset is read as a cursor there reads it -/
theorem At.read (h : t.At a) : ∃ u, t.read? = some (a.read.answer, u) ∧ u.At (a.read.cursor a) := by
  rw [read?, h.slice?_eq]
  simp only [Option.bind_eq_bind, Option.bind_some, String.toList_ofList, Option.pure_def]
  unfold Cursor.read
  cases hrest : a.rest with
  | nil => exact ⟨t, rfl, h⟩
  | cons first tail =>
    simp only
    cases hsym : symbolAt (first :: tail) with
    | some found =>
      have hstarts : found.1.isPrefixOf (first :: tail) = true := by simpa using List.find?_some hsym
      obtain ⟨more, hmore⟩ := List.isPrefixOf_iff_prefix.1 hstarts
      exact h.emit (hrest.trans hmore.symm)
    | none =>
      simp only
      by_cases hstart : isWordStart first = true
      · have hsplit : first :: tail = (first :: tail).takeWhile isWordPart ++ (first :: tail).dropWhile isWordPart :=
          List.takeWhile_append_dropWhile.symm
        have hword : slice? (String.ofList (first :: tail)) 0 (byteSize ((first :: tail).takeWhile isWordPart)) =
            some (String.ofList ((first :: tail).takeWhile isWordPart)) := by
          have hfront : (String.ofList (first :: tail)).toList =
              [] ++ ((first :: tail).takeWhile isWordPart ++ (first :: tail).dropWhile isWordPart) := by
            rw [String.toList_ofList]
            exact hsplit
          exact slice?_append hfront rfl (Nat.zero_add _)
        rw [if_pos hstart, if_pos hstart, hword]
        simp only [Option.bind_some, String.toList_ofList]
        exact h.emit (hrest.trans hsplit)
      · obtain ⟨before, htext, hsize⟩ := h.exists_before
        have hend : t.formula.utf8ByteSize = a.position + byteSize a.rest := by
          rw [← byteSize_toList, htext, byteSize_append, hsize]
        rw [if_neg hstart, if_neg hstart]
        refine ⟨{ t with pos := t.formula.utf8ByteSize }, by rw [h.pos_eq]; rfl, ?_⟩
        have hall : a.rest = a.rest ++ [] := (List.append_nil _).symm
        have hmove := h.move hall
        rw [h.pos_eq, ← hend] at hmove
        simpa [Step.cursor, Cursor.advance, ← hrest, hend] using hmove

/-- **One call.** No slice fails, and the answer is that of the cursor's step. -/
theorem next?_of_at (h : t.At a) : ∃ u, t.next? = some (a.next.answer, u) ∧ u.At a.after := by
  obtain ⟨u, hskip, hu⟩ := h.skip
  obtain ⟨w, hread, hw⟩ := hu.read
  refine ⟨w, ?_, hw⟩
  rw [next?, hskip, Option.bind_some, hread]
  rfl

theorem call?_of_at (h : t.At a) (k : Nat) : t.call? k = some (Cursor.after^[k] a).next.answer := by
  induction k generalizing t a with
  | zero =>
    obtain ⟨u, hnext, -⟩ := next?_of_at h
    rw [call?, hnext]
    rfl
  | succ k ih =>
    obtain ⟨u, hnext, hu⟩ := next?_of_at h
    rw [call?, hnext, Option.bind_some, ih hu, Function.iterate_succ_apply]

/-- all calls together find what the lexer finds -/
theorem drain?_of_at (h : t.At a) (fuel : Nat) : t.drain? fuel = some (a.drain fuel).1 := by
  induction fuel generalizing t a with
  | zero => rfl
  | succ fuel ih =>
    obtain ⟨u, hnext, hu⟩ := next?_of_at h
    rw [Cursor.after] at hu
    rw [drain?, hnext, Cursor.drain]
    cases hstep : a.next with
    | finished => rfl
    | unknown c b => rfl
    | token token b =>
      rw [hstep] at hu
      simp only [Option.bind_eq_bind, Option.bind_some, Step.answer, ih hu]
      rfl

end Tokenizer

/-! ## Where the tokens end -/

namespace Cursor

variable {a b : Cursor} {tokens : List Token} {fault : Option UnknownChar} {u : UnknownChar} {tail x y : List Char}

/-- nothing is found any more, or an unknown character is -/
inductive StopsWith (b : Cursor) : Option UnknownChar → Prop where
  | finished : b.next = .finished → StopsWith b none
  | unknown {u : UnknownChar} {after : Cursor} : b.next = .unknown u after → StopsWith b (some u)

/-- the lexer finds its tokens on the way to where it stops -/
theorem lex_stops (fuel : Nat) (a : Cursor) (hf : a.rest.length ≤ fuel) :
    ∃ b, a.Finds (a.drain fuel).1.tokens b ∧ b.StopsWith (a.drain fuel).1.fault := by
  induction fuel generalizing a with
  | zero => exact ⟨a, .refl, .finished (next_of_rest_nil (List.length_eq_zero_iff.1 (Nat.le_zero.1 hf)))⟩
  | succ fuel ih =>
    rw [drain]
    cases hstep : a.next with
    | finished => exact ⟨a, .refl, .finished hstep⟩
    | unknown u after => exact ⟨a, .refl, .unknown hstep⟩
    | token t after =>
      have hlt := rest_lt_of_token hstep
      obtain ⟨b, hfinds, hstops⟩ := ih after (by omega)
      exact ⟨b, .step hstep hfinds, hstops⟩

/-- once nothing is found nothing ever is -/
theorem answer_of_finished (h : a.next = .finished) (k : Nat) : (after^[k] a).next.answer = none := by
  induction k generalizing a with
  | zero =>
    rw [Function.iterate_zero_apply, h]
    rfl
  | succ k ih =>
    have hrest : a.skip.rest = [] := List.dropWhile_eq_nil_iff.2 (next_eq_finished_iff.1 h)
    have hafter : a.after = a.skip := by rw [after, h]; rfl
    rw [Function.iterate_succ_apply, hafter, ih (next_of_rest_nil hrest)]

/-- where the tokens stop, the calls that follow answer with the unknown character if there is one, and then with nothing -/
theorem StopsWith.answer (h : b.StopsWith fault) (k : Nat) :
    (after^[k] b).next.answer = ((fault.map .error).toList : List (Except UnknownChar Token))[k]? := by
  cases h with
  | finished hnext => simp [answer_of_finished hnext]
  | @unknown u c hnext =>
    cases k with
    | zero =>
      rw [Function.iterate_zero_apply, hnext]
      rfl
    | succ k =>
      have hafter : b.after = c := by rw [after, hnext]; rfl
      rw [Function.iterate_succ_apply, hafter, answer_of_finished (next_of_rest_nil (rest_of_unknown hnext))]
      rfl

/-- the calls on the way are answered with the tokens in turn -/
theorem Finds.answer (h : a.Finds tokens b) (hb : b.StopsWith fault) (k : Nat) :
    (after^[k] a).next.answer = (tokens.map .ok ++ (fault.map .error).toList)[k]? := by
  induction h generalizing k with
  | refl => exact hb.answer k
  | @step a c d t tokens hnext _ ih =>
    cases k with
    | zero =>
      rw [Function.iterate_zero_apply, hnext]
      rfl
    | succ k =>
      have hafter : a.after = c := by rw [after, hnext]; rfl
      rw [Function.iterate_succ_apply, hafter, ih hb k]
      rfl

/-! ## Places -/

/-- the rest where the tokens end is the end of the rest where they began -/
theorem Finds.exists_append (h : a.Finds tokens b) :
    ∃ passed, a.rest = passed ++ b.rest ∧ b.position = a.position + byteSize passed := by
  induction h with
  | refl => exact ⟨[], rfl, rfl⟩
  | @step a c d t tokens hnext _ ih =>
    obtain ⟨passed, hrest, hposition⟩ := ih
    obtain ⟨⟨lead, -, hlead, hplace⟩, -, -, hafter⟩ := next_eq_token_iff.1 hnext
    refine ⟨lead ++ (t.spelling.toList ++ passed), ?_, ?_⟩
    · rw [hlead, hrest]
      simp
    · rw [hposition, hafter, hplace]
      simp only [byteSize_append]
      omega

/-- every token stands in the text with its spelling, at its place -/
theorem Finds.spelled (h : a.Finds tokens b) : ∀ t ∈ tokens, ∃ before after,
    a.rest = before ++ (t.spelling.toList ++ after) ∧ t.position = a.position + byteSize before := by
  induction h with
  | refl => intro t ht; cases ht
  | @step a c d t tokens hnext _ ih =>
    obtain ⟨⟨lead, -, hlead, hplace⟩, -, -, hafter⟩ := next_eq_token_iff.1 hnext
    intro u hu
    rcases List.mem_cons.1 hu with rfl | hu
    · exact ⟨lead, c.rest, hlead, hplace⟩
    · obtain ⟨before, after, hrest, hposition⟩ := ih u hu
      refine ⟨lead ++ (t.spelling.toList ++ before), after, ?_, ?_⟩
      · rw [hlead, hrest]
        simp
      · rw [hposition, hafter, hplace]
        simp only [byteSize_append]
        omega

/-- a spelling is not empty, so each token stands behind the one before it -/
theorem Finds.ascending (h : a.Finds tokens b) :
    (∀ t ∈ tokens, a.position ≤ t.position) ∧ tokens.Pairwise fun t u => t.position < u.position := by
  induction h with
  | refl => exact ⟨by simp, .nil⟩
  | @step a c d t tokens hnext _ ih =>
    obtain ⟨⟨lead, -, -, hplace⟩, hspells, -, hafter⟩ := next_eq_token_iff.1 hnext
    have hpos : 0 < byteSize t.spelling.toList := by
      obtain ⟨first, more, hfirst, -⟩ := hspells.exists_cons
      rw [hfirst, byteSize_cons]
      have := first.utf8Size_pos
      omega
    have hbehind : ∀ u ∈ tokens, t.position < u.position := by
      intro u hu
      have := ih.1 u hu
      omega
    refine ⟨fun u hu => ?_, List.pairwise_cons.2 ⟨hbehind, ih.2⟩⟩
    rcases List.mem_cons.1 hu with rfl | hu
    · omega
    · have := hbehind u hu
      omega

/-! ## The unknown character -/

/-- an unknown character stands behind blanks; it is none itself, and neither a symbol nor a word begins with it -/
theorem exists_of_unknown {after : Cursor} (h : a.next = .unknown u after) : ∃ gap rest, IsGap gap ∧
    a.rest = gap ++ u.char :: rest ∧ u.position = a.position + byteSize gap ∧ isBlank u.char = false ∧
      isWordStart u.char = false ∧ symbolAt (u.char :: rest) = none := by
  have hsplit : a.rest = a.rest.takeWhile isBlank ++ a.skip.rest := List.takeWhile_append_dropWhile.symm
  unfold next read at h
  split at h
  · cases h
  · rename_i first rest hrest
    split at h
    · cases h
    · rename_i hsym
      split at h
      · cases h
      · rename_i hstart
        obtain ⟨rfl, -⟩ := Step.unknown.inj h
        rw [hrest] at hsplit hsym
        refine ⟨a.rest.takeWhile isBlank, rest, isGap_takeWhile _, hsplit, rfl, ?_, by simpa using hstart, hsym⟩
        have hnot := List.head?_dropWhile_not isBlank a.rest
        have hdrop : a.rest.dropWhile isBlank = first :: rest := hrest
        rw [hdrop] at hnot
        simpa using hnot

/-- a token is cut off in the same way when the text ends earlier, if it ends behind the token -/
theorem Cuts.cut {t : Token} (h : a.Cuts t b) (hb : b.rest = y ++ tail) :
    ∃ x, a.rest = x ++ tail ∧ Cuts ⟨a.position, x⟩ t ⟨b.position, y⟩ := by
  obtain ⟨⟨lead, hlead, hrest, hposition⟩, hspells, hends, hafter⟩ := h
  refine ⟨lead ++ (t.spelling.toList ++ y), ?_, ⟨⟨lead, hlead, rfl, hposition⟩, hspells, fun hword c hc => ?_, hafter⟩⟩
  · rw [hrest, hb]
    simp
  · apply hends hword
    rw [hb, List.head?_append, Option.mem_def.1 hc]
    rfl

/-- what is found before a point of the text is found without the text behind it -/
theorem Finds.cut (h : a.Finds tokens b) (hb : b.rest = y ++ tail) :
    ∃ x, a.rest = x ++ tail ∧ Finds ⟨a.position, x⟩ tokens ⟨b.position, y⟩ := by
  induction h with
  | refl => exact ⟨y, hb, .refl⟩
  | @step a c d t tokens hnext _ ih =>
    obtain ⟨z, hz, hfinds⟩ := ih hb
    obtain ⟨x, hx, hcuts⟩ := (next_eq_token_iff.1 hnext).cut hz
    exact ⟨x, hx, .step (next_eq_token_iff.2 hcuts) hfinds⟩

end Cursor

/-! ## Texts -/

/-- a text can be cut before its unknown character: what is left are the same tokens, and no token begins what is cut off -/
theorem exists_cut_of_unknown {text : String} {u : UnknownChar} (h : (lex text).fault = some u) :
    ∃ before rest, text.toList = before ++ u.char :: rest ∧ byteSize before = u.position ∧ isBlank u.char = false ∧
      isWordStart u.char = false ∧ symbolAt (u.char :: rest) = none ∧
        lex (String.ofList before) = ⟨(lex text).tokens, none⟩ := by
  obtain ⟨b, hfinds, hstops⟩ := Cursor.lex_stops _ (Cursor.start text) (Nat.le_refl _)
  rw [lex, Cursor.lex] at h
  rw [h] at hstops
  cases hstops with
  | unknown hnext =>
    obtain ⟨gap, rest, hgap, hrest, hposition, hblank, hstart, hsym⟩ := Cursor.exists_of_unknown hnext
    obtain ⟨before, htext, hcut⟩ := hfinds.cut hrest
    obtain ⟨passed, hpassed, hb⟩ := hcut.exists_append
    have hplace : byteSize before = u.position := by
      calc byteSize before = byteSize passed + byteSize gap := by
            rw [← byteSize_append]
            exact congrArg byteSize hpassed
        _ = b.position + byteSize gap := by rw [show b.position = 0 + byteSize passed from hb, Nat.zero_add]
        _ = u.position := hposition.symm
    have hfinished : Cursor.next ⟨b.position, gap⟩ = .finished := Cursor.next_eq_finished_iff.2 hgap
    refine ⟨before, rest, htext, hplace, hblank, hstart, hsym, ?_⟩
    have hbegin : Cursor.start (String.ofList before) = ⟨(Cursor.start text).position, before⟩ := by
      rw [Cursor.start, String.toList_ofList]
      rfl
    rw [lex, Cursor.lex, hbegin, Cursor.drain_of_finds hcut hfinished _ (Nat.le_refl _)]
    rfl

/-- what is to be known of the tokens of a text, and of the character that ended them -/
structure Lexed.Reports (l : Lexed) (text : String) : Prop where
  /-- the tokens in turn, then the unknown character if there is one, then nothing, however often one calls -/
  calls : ∀ k, (Tokenizer.start text).call? k = some (l.tokens.map .ok ++ (l.fault.map .error).toList)[k]?
  ascending : l.tokens.Pairwise fun t u => t.position < u.position
  spelled : ∀ t ∈ l.tokens, slice? text t.position (t.position + t.spelling.utf8ByteSize) = some t.spelling
  /-- the text can be cut before an unknown character; what is behind begins with it, and the rest is all tokens -/
  unknown : ∀ u ∈ l.fault, ∃ before rest, slice? text 0 u.position = some before ∧
    slice? text u.position text.utf8ByteSize = some rest ∧ rest.toList.head? = some u.char ∧ isBlank u.char = false ∧
      u.char.isAlpha = false ∧ (∀ s ∈ symbols, ¬ s.1 <+: rest.toList) ∧ tokenize before = .ok l.tokens

/-- **What the lexer says of a text.** However often it is called, no slice of the text is taken off a character boundary. The
calls yield tokens at ascending offsets, each spelled as the slice at its place, then the unknown character if there is one,
and then nothing for good. Where there is one it is no blank, and neither a word nor a symbol begins with it; and the text
before it is cut into the same tokens. -/
theorem lex_reports (text : String) : (lex text).Reports text := by
  obtain ⟨b, hfinds, hstops⟩ := Cursor.lex_stops _ (Cursor.start text) (Nat.le_refl _)
  constructor
  case calls =>
    intro k
    rw [Tokenizer.call?_of_at (Tokenizer.at_start text), hfinds.answer hstops]
    rfl
  case ascending => exact hfinds.ascending.2
  case spelled =>
    intro t ht
    obtain ⟨before, after, hrest, hposition⟩ := hfinds.spelled t ht
    have hplace : byteSize before = t.position := by rw [hposition, Cursor.start, Nat.zero_add]
    rw [slice?_append hrest hplace (by rw [hplace, byteSize_toList]), String.ofList_toList]
  case unknown =>
    intro u hu
    obtain ⟨before, rest, htext, hplace, hblank, hstart, hsym, hlex⟩ := exists_cut_of_unknown hu
    have hfront : text.toList = [] ++ (before ++ u.char :: rest) := htext
    have hbefore : slice? text 0 u.position = some (String.ofList before) :=
      slice?_append hfront rfl (by rw [hplace]; exact Nat.zero_add _)
    refine ⟨String.ofList before, String.ofList (u.char :: rest), hbefore, slice?_rest htext hplace, ?_, hblank, hstart, ?_,
      tokenize_eq_ok_iff.2 hlex⟩
    · rw [String.toList_ofList]
      rfl
    · intro s hs hprefix
      rw [String.toList_ofList, ← List.isPrefixOf_iff_prefix] at hprefix
      exact List.find?_eq_none.1 hsym s hs hprefix

end Sequitur
