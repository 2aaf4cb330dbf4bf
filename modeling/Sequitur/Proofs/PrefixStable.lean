/-
Errors that stay when a text goes on.

Some errors say that a text has ended too early, and vanish once it goes on. The others point at something that stands in the
text and does not fit: an unknown character, a parenthesis that was never opened, a token where a formula was complete. What
comes behind it is never looked at, so whatever is written behind the text, the error stays, to the letter.

A blank keeps what is added apart. So the lexer finds the tokens of the text and then more (`Lexed.GoesOn`), unless an unknown
character has ended them. The parser looks one token ahead, and where its tokens run out it does not know yet how it would
have gone on. But as long as it leaves a token behind it has done nothing that more tokens would change (`CarriesOn`):

- `lex_goesOn`: the tokens of a text that goes on behind a blank;
- `Parser.carriesOn_unary`: readers that leave tokens, or fail at one, do the same when more tokens follow;
- `Formula.parse_prolonged`: an error at something in the text is the error of the prolonged text.
-/
import Mathlib
import Sequitur.Proofs.Offsets
import Sequitur.Proofs.Recognition

namespace Sequitur

open Text

/-! ## The tokens of a text that goes on -/

/-- tokens of a text, and of one that goes on from it: an unknown character is the end of both -/
def Lexed.GoesOn (l l' : Lexed) : Prop :=
  match l.fault with
  | some _ => l' = l
  | none => ∃ more, l'.tokens = l.tokens ++ more

/-- a symbol that begins in front of a blank ends in front of it -/
theorem symbolAt_append_blank {c : Char} {cs tail : List Char} (hc : isBlank c = true) (h : symbolAt cs = none) :
    symbolAt (cs ++ c :: tail) = none := by
  rw [symbolAt, List.find?_eq_none] at h ⊢
  intro x hx hstarts
  rw [List.isPrefixOf_iff_prefix] at hstarts
  rcases List.prefix_or_prefix_of_prefix hstarts (List.prefix_append cs _) with hshort | ⟨beyond, hlong⟩
  · exact h x hx (List.isPrefixOf_iff_prefix.2 hshort)
  · cases beyond with
    | nil => exact h x hx (List.isPrefixOf_iff_prefix.2 (by rw [← hlong, List.append_nil]))
    | cons d beyond =>
      -- the symbol would go on beyond the blank, but there is none in it
      rw [← hlong, List.prefix_append_right_inj, List.cons_prefix_cons] at hstarts
      have hmem : c ∈ x.1 := by
        rw [← hlong, hstarts.1]
        simp
      have hblank := (not_mem_symbol x hx c hmem).1
      rw [hc] at hblank
      cases hblank

namespace Cursor

variable {a b : Cursor} {t : Token} {tokens : List Token} {fault : Option UnknownChar} {u : UnknownChar} {c : Char}
  {gap rest tail : List Char}

/-- where a cursor stands in a text that goes on -/
def prolonged (a : Cursor) (tail : List Char) : Cursor := ⟨a.position, a.rest ++ tail⟩

theorem Cuts.prolonged (h : a.Cuts t b) (ht : WordEnds tail) : (a.prolonged tail).Cuts t (b.prolonged tail) := by
  obtain ⟨⟨lead, hlead, hrest, hposition⟩, hspells, hends, hafter⟩ := h
  refine ⟨⟨lead, hlead, ?_, hposition⟩, hspells, fun hword => ?_, hafter⟩
  · simp [Cursor.prolonged, hrest]
  · intro d hd
    have hb := hends hword
    cases hrest' : b.rest with
    | nil =>
      rw [Cursor.prolonged, hrest'] at hd
      exact ht d hd
    | cons e rest =>
      rw [Cursor.prolonged, hrest'] at hd
      exact hb d (by rw [hrest']; exact hd)

/-- what is found is found as well if something follows that goes on no word -/
theorem Finds.prolonged (h : a.Finds tokens b) (ht : WordEnds tail) : (a.prolonged tail).Finds tokens (b.prolonged tail) := by
  induction h with
  | refl => exact .refl
  | step hn _ ih => exact .step ((next_eq_token_iff.1 hn).prolonged ht).next_eq ih

/-- a character with which neither a symbol nor a word begins is unknown -/
theorem next_eq_unknown (hgap : IsGap gap) (hrest : a.rest = gap ++ c :: rest) (hblank : isBlank c = false)
    (hstart : isWordStart c = false) (hsym : symbolAt (c :: rest) = none) :
    ∃ after, a.next = .unknown ⟨a.position + byteSize gap, c⟩ after := by
  have hskip : a.skip.rest = c :: rest := by
    have hdrop : (gap ++ c :: rest).dropWhile isBlank = c :: rest := by
      rw [List.dropWhile_append_of_pos hgap, List.dropWhile_cons, hblank]
      simp
    rw [skip, skipBlanks, hrest, hdrop]
  have hposition : a.skip.position = a.position + byteSize gap := by
    have htake : (gap ++ c :: rest).takeWhile isBlank = gap := by
      rw [List.takeWhile_append_of_pos hgap, List.takeWhile_cons, hblank]
      simp
    rw [skip, hrest, htake]
  refine ⟨a.skip.advance (c :: rest), ?_⟩
  rw [next, read, hskip]
  simp only [hsym, hstart, hposition]
  rfl

/-- an unknown character stays unknown if a blank follows the text -/
theorem StopsWith.prolonged (h : b.StopsWith (some u)) (hc : isBlank c = true) :
    (b.prolonged (c :: tail)).StopsWith (some u) := by
  cases h with
  | unknown hnext =>
    obtain ⟨gap, rest, hgap, hrest, hposition, hblank, hstart, hsym⟩ := exists_of_unknown hnext
    have hrest' : (b.prolonged (c :: tail)).rest = gap ++ u.char :: (rest ++ c :: tail) := by
      simp [Cursor.prolonged, hrest]
    obtain ⟨after, hafter⟩ := next_eq_unknown hgap hrest' hblank hstart (symbolAt_append_blank hc hsym)
    have hu : (⟨(b.prolonged (c :: tail)).position + byteSize gap, u.char⟩ : UnknownChar) = u := by
      rw [Cursor.prolonged, ← hposition]
    rw [hu] at hafter
    exact .unknown hafter

/-- tokens that lead to where the lexer stops are all that it finds -/
theorem drain_of_stops (h : a.Finds tokens b) (hb : b.StopsWith fault) (fuel : Nat) (hf : a.rest.length ≤ fuel) :
    (a.drain fuel).1 = ⟨tokens, fault⟩ := by
  induction h generalizing fuel with
  | @refl a =>
    cases fuel with
    | zero =>
      have hnil : a.rest = [] := List.length_eq_zero_iff.1 (Nat.le_zero.1 hf)
      cases hb with
      | finished _ => rfl
      | unknown hnext =>
        rw [next_of_rest_nil hnil] at hnext
        cases hnext
    | succ fuel =>
      cases hb with
      | finished hnext => simp only [drain, hnext]
      | unknown hnext => simp only [drain, hnext]
  | @step a b d t tokens hnext _ ih =>
    have hlt := rest_lt_of_token hnext
    cases fuel with
    | zero => omega
    | succ fuel =>
      have hdrain := ih hb fuel (by omega)
      simp only [drain, hnext, hdrain]

end Cursor

/-- **What is added behind a blank comes after all tokens of the text.** -/
theorem lex_goesOn (s t : String) : (lex s).GoesOn (lex (s ++ " " ++ t)) := by
  obtain ⟨b, hfinds, hstops⟩ := Cursor.lex_stops _ (Cursor.start s) (Nat.le_refl _)
  have hwhole : Cursor.start (s ++ " " ++ t) = (Cursor.start s).prolonged (' ' :: t.toList) := by
    simp [Cursor.start, Cursor.prolonged]
  have hends : WordEnds (' ' :: t.toList) := wordEnds_cons rfl _
  have hfinds' := hfinds.prolonged hends
  rw [← hwhole] at hfinds'
  change b.StopsWith (lex s).fault at hstops
  rw [Lexed.GoesOn]
  cases hfault : (lex s).fault with
  | some u =>
    rw [hfault] at hstops
    have hlex : lex (s ++ " " ++ t) = ⟨(lex s).tokens, some u⟩ :=
      Cursor.drain_of_stops hfinds' (hstops.prolonged rfl) _ (Nat.le_refl _)
    exact hlex.trans (by rw [← hfault])
  | none =>
    obtain ⟨d, hmore, hlast⟩ := Cursor.lex_stops _ (b.prolonged (' ' :: t.toList)) (Nat.le_refl _)
    have hlex := Cursor.drain_of_stops (hfinds'.append hmore) hlast _ (Nat.le_refl _)
    exact ⟨_, congrArg Lexed.tokens hlex⟩

/-! ## Errors at something in the text -/

/-- whether an error points at something that stands in the text and does not fit -/
def SyntaxError.isAtToken : SyntaxError → Bool
  | .unknownChar _ | .unmatched _ | .expectedEnd _ _ | .expectedClosing _ _ => true
  | .empty | .missingOperand _ _ | .unclosed _ | .tooDeep _ => false

namespace Parser

open Sequitur.Grammar

variable {fault : Option UnknownChar} {op : Connective} {room : Nat} {read read' : Reader}
  {tokens rest rest' more : List Token} {sub left : Sub} {t : Token} {e : SyntaxError}

/-- where a reader of a text leaves a token, or fails at one, the other reader does the same with more tokens behind -/
structure CarriesOn (read read' : Reader) : Prop where
  ok : ∀ {tokens sub t rest}, read tokens = .ok (sub, t :: rest) → ∀ more,
    read' (tokens ++ more) = .ok (sub, t :: rest ++ more)
  error : ∀ {tokens e}, read tokens = .error e → e.isAtToken = true → ∀ more, read' (tokens ++ more) = .error e

/-! ### Chains -/

/-- an operand that follows is seen whatever comes behind it -/
theorem operandAfter_append (fault : Option UnknownChar) (h : operandAfter none t rest = .ok ()) (more : List Token) :
    operandAfter fault t (rest ++ more) = .ok () := by
  obtain ⟨u, tail, rfl, hu⟩ := operandAfter_ok h
  exact if_pos hu

/-- what is missing behind a connective is said of the connective -/
theorem isAtToken_of_operandAfter (h : operandAfter none t rest = .error e) : e.isAtToken = false := by
  rcases operandAfter_error h with ⟨-, rfl⟩ | ⟨u, tail, -, -, rfl⟩ <;> rfl

theorem isAtToken_of_bounded {f : Formula} {height position : Nat} (h : Sub.bounded f height position = .error e) :
    e.isAtToken = false := by
  rw [(bounded_error h).1]
  rfl

/-- a loop that leaves tokens had some to begin with -/
theorem Loop.exists_cons {u : Token} (h : Loop none op read left rest sub (u :: rest')) : ∃ t tail, rest = t :: tail := by
  cases h with
  | stop _ => exact ⟨_, _, rfl⟩
  | turn _ _ _ _ _ => exact ⟨_, _, rfl⟩

theorem LoopFails.exists_cons (h : LoopFails none op read left rest e) : ∃ t tail, rest = t :: tail := by
  cases h <;> exact ⟨_, _, rfl⟩

theorem Loop.append (hread : CarriesOn read read') {last : List Token} (h : Loop none op read left rest sub last)
    (hlast : last ≠ []) (more : List Token) : Loop fault op read' left (rest ++ more) sub (last ++ more) := by
  induction h with
  | @stop left rest hstop =>
    obtain ⟨t, tail, rfl⟩ := List.exists_cons_of_ne_nil hlast
    exact .stop hstop
  | @turn left right joined sub t rest rest₁ last ht ha hr hj hloop ih =>
    obtain ⟨u, tail, rfl⟩ := List.exists_cons_of_ne_nil hlast
    obtain ⟨w, tail₁, rfl⟩ := hloop.exists_cons
    exact .turn ht (operandAfter_append fault ha more) (hread.ok hr more) hj (ih hlast)

theorem LoopFails.append (hread : CarriesOn read read') (h : LoopFails none op read left rest e)
    (he : e.isAtToken = true) (more : List Token) : LoopFails fault op read' left (rest ++ more) e := by
  induction h with
  | lacking _ ha =>
    rw [isAtToken_of_operandAfter ha] at he
    cases he
  | operand ht ha hr => exact .operand ht (operandAfter_append fault ha more) (hread.error hr he more)
  | tall _ _ _ hj =>
    rw [isAtToken_of_bounded hj] at he
    cases he
  | later ht ha hr hj hloop ih =>
    obtain ⟨w, tail₁, rfl⟩ := hloop.exists_cons
    exact .later ht (operandAfter_append fault ha more) (hread.ok hr more) hj (ih he)

theorem carriesOn_chain (hc : Consumes read) (hc' : Consumes read') (h : CarriesOn read read') :
    CarriesOn (chain none op read) (chain fault op read') := by
  constructor
  · intro tokens sub t rest hok more
    obtain ⟨first, rest₀, hread, hloop⟩ := chain_ok hc hok
    obtain ⟨u, tail, rfl⟩ := hloop.exists_cons
    exact chain_of_loop hc' (h.ok hread more) (hloop.append h (List.cons_ne_nil _ _) more)
  · intro tokens e herr he more
    rcases chain_error herr with hread | ⟨first, rest₀, hread, hloop⟩
    · exact chain_of_error (h.error hread he more)
    · obtain ⟨u, tail, rfl⟩ := hloop.exists_cons
      exact chain_of_loopFails hc' (h.ok hread more) (hloop.append h he more)

theorem carriesOn_formula (h : CarriesOn (unary none room) (unary fault room)) :
    CarriesOn (formula none room) (formula fault room) := by
  refine joined_induction (motive := fun level => CarriesOn (reader none room level) (reader fault room level)) h ?_ .equiv
  intro op hoperand
  rw [reader_joined, reader_joined]
  exact carriesOn_chain (sound_reader none room op).consumes (sound_reader fault room op).consumes hoperand

/-! ### Operands -/

/-- a text that goes on behind a parenthesis goes on behind it in the prolonged text -/
theorem not_ends_append (fault : Option UnknownChar) (h : ¬ (rest = [] ∧ (none : Option UnknownChar) = none))
    (more : List Token) : ¬ (rest ++ more = [] ∧ fault = none) := by
  rintro ⟨hnil, -⟩
  exact h ⟨(List.append_eq_nil_iff.1 hnil).1, rfl⟩

/-- an operand is read as before if what stands inside it is -/
theorem carriesOn_unaryOf {inner inner' : Option Reader}
    (h : ∀ read, inner = some read → ∃ read', inner' = some read' ∧ CarriesOn read read' ∧
      CarriesOn (formulaOf none read) (formulaOf fault read')) :
    CarriesOn (unaryOf none inner) (unaryOf fault inner') := by
  constructor
  · intro tokens sub t rest hok more
    cases operand_of_ok hok with
    | var ht => simp only [List.cons_append, unaryOf, ht]
    | negation ht ha hi hr hn =>
      obtain ⟨read', rfl, hread, -⟩ := h _ hi
      have hr' := hread.ok hr more
      have ha' := operandAfter_append fault ha more
      simp only [List.cons_append, unaryOf, ht, ha', bind, Except.bind, deeper, hr', hn]
      rfl
    | @group opened closed tail _ read _ ho hi hr hc =>
      obtain ⟨read', rfl, -, hread⟩ := h _ hi
      have hr' := hread.ok hr more
      have hne : ¬ (tail = [] ∧ (none : Option UnknownChar) = none) := by
        rintro ⟨rfl, -⟩
        simp [unaryOf, ho] at hok
      have hne' := not_ends_append fault hne more
      simp only [List.cons_append, unaryOf, ho, if_neg hne', Option.map_some, deeper, hr', bind, Except.bind, close,
        if_pos hc]
  · intro tokens e herr he more
    cases operandFails_of_error herr with
    | nothing => cases he
    | connective _ => cases he
    | closing ht => simp only [List.cons_append, unaryOf, ht]
    | lacking _ ha =>
      rw [isAtToken_of_operandAfter ha] at he
      cases he
    | unclosed _ _ => cases he
    | noRoom _ _ => cases he
    | negated ht ha hi hr =>
      obtain ⟨read', rfl, hread, -⟩ := h _ hi
      have hr' := hread.error hr he more
      have ha' := operandAfter_append fault ha more
      simp only [List.cons_append, unaryOf, ht, ha', bind, Except.bind, deeper, hr']
    | tall _ _ _ _ hn =>
      rw [isAtToken_of_bounded hn] at he
      cases he
    | grouped ht hne hi hr =>
      obtain ⟨read', rfl, -, hread⟩ := h _ hi
      have hr' := hread.error hr he more
      have hne' := not_ends_append fault hne more
      simp only [List.cons_append, unaryOf, ht, if_neg hne', Option.map_some, deeper, hr', bind, Except.bind]
    | unended ht hne hi hr hc =>
      obtain ⟨read', rfl, -, hread⟩ := h _ hi
      rcases close_error hc with ⟨-, rfl⟩ | ⟨u, tail, rfl, hu, rfl⟩
      · cases he
      · have hr' := hread.ok hr more
        have hne' := not_ends_append fault hne more
        simp only [List.cons_append] at hr' ⊢
        simp only [unaryOf, ht, if_neg hne', Option.map_some, deeper, hr', bind, Except.bind, close, if_neg hu]

/-- readers with any room, whatever ends the tokens of the prolonged text -/
theorem carriesOn_unary (fault : Option UnknownChar) (room : Nat) : CarriesOn (unary none room) (unary fault room) := by
  induction room with
  | zero => exact carriesOn_unaryOf nofun
  | succ room ih =>
    refine carriesOn_unaryOf fun read hread => ?_
    cases hread
    exact ⟨unary fault room, rfl, ih, carriesOn_formula ih⟩

/-! ### Whole texts -/

/-- an error at something in a text is the error of every text that goes on from it -/
theorem whole_of_goesOn {l l' : Lexed} (h : l.GoesOn l') (he : whole l = .error e) (hat : e.isAtToken = true) :
    whole l' = .error e := by
  obtain ⟨tokens, ended⟩ := l
  cases ended with
  | some u =>
    rw [show l' = ⟨tokens, some u⟩ from h]
    exact he
  | none =>
    obtain ⟨tokens', fault⟩ := l'
    obtain ⟨more, hmore⟩ := h
    obtain rfl : tokens' = tokens ++ more := hmore
    have hformula : CarriesOn (formula none maxNesting) (formula fault maxNesting) :=
      carriesOn_formula (carriesOn_unary fault maxNesting)
    rcases error_of_bind he with hread | ⟨⟨sub, rest⟩, hread, hfinish⟩
    · have hread' := hformula.error hread hat more
      simp only [whole, hread', bind, Except.bind]
    · cases rest with
      | nil => cases hfinish
      | cons t rest =>
        have hread' := hformula.ok hread more
        simp only [whole, hread', bind, Except.bind]
        exact hfinish

end Parser

/-- **Errors at something in the text stay.** If a text is refused for an unknown character, for a parenthesis that was never
opened, or for a token where its end or a closing parenthesis was expected, it is refused with the same error when a blank
and any other text follow it. -/
theorem Formula.parse_prolonged {s : String} {e : SyntaxError} (h : parse s = .error e) (he : e.isAtToken = true)
    (t : String) : parse (s ++ " " ++ t) = .error e :=
  Parser.whole_of_goesOn (lex_goesOn s t) h he

/-- errors of all these kinds, before text that would have closed the group, gone on with the chain or not been read at all -/
theorem Formula.parse_prolonged_fourKinds :
    parse "(P # Q" = .error (.unknownChar ⟨3, '#'⟩) ∧ parse ("(P # Q" ++ " " ++ ")") = .error (.unknownChar ⟨3, '#'⟩) ∧
      parse "P)" = .error (.unmatched 1) ∧ parse ("P)" ++ " " ++ "& Q") = .error (.unmatched 1) ∧
      parse "(P not" = .error (.expectedClosing "not" 3) ∧
      parse ("(P not" ++ " " ++ "Q $") = .error (.expectedClosing "not" 3) ∧
      parse "P Q" = .error (.expectedEnd "Q" 2) ∧ parse ("P Q" ++ " " ++ "iff P") = .error (.expectedEnd "Q" 2) := by
  have hunknown : parse "(P # Q" = .error (.unknownChar ⟨3, '#'⟩) := rfl
  have hunmatched : parse "P)" = .error (.unmatched 1) := rfl
  have hclosing : parse "(P not" = .error (.expectedClosing "not" 3) := rfl
  have hend : parse "P Q" = .error (.expectedEnd "Q" 2) := rfl
  exact ⟨hunknown, parse_prolonged hunknown rfl _, hunmatched, parse_prolonged hunmatched rfl _, hclosing,
    parse_prolonged hclosing rfl _, hend, parse_prolonged hend rfl _⟩

end Sequitur
