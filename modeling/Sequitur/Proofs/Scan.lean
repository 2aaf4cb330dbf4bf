/-
Errors as a scan from left to right finds them.

The parser meets an error somewhere inside its readers, and which of several errors it reports depends on which reader
looks first. The scan has no readers. It keeps the positions of the open parentheses and knows whether an operand has to
come next or one has just been completed, and it reports the first token, or the end, that does not fit.

Both agree wherever the parser does not give up for depth. The open parentheses of the scan are the groups that the parser
is inside of, and its two modes are the two places where a reader can be: about to read an operand, or behind one. In both
places reading on and scanning on come to the same (`Follows`, `run_of_loop`, `run_of_loopFails`). Two facts about readings
are needed on the way: a connective is only passed if an operand can begin behind it (`Ready`), and behind a complete
formula no connective is left, so that a group and a text end where the scan says they do.

- `follows_formula`: reading a formula and scanning it agree, whatever is open around it;
- `Formula.parse_agrees_with_scan`: the parser accepts what the scan accepts and reports the error that the scan reports.
-/
import Sequitur.Proofs.Reading

namespace Sequitur

/-- a connective that an operand has to follow -/
def Kind.needsOperand : Kind → Bool
  | .connective _ | .not => true
  | _ => false

namespace Scan

inductive Mode where
  /-- an operand has to come; `previous` is the token before it -/
  | operand (previous : Option Token)
  /-- an operand is complete -/
  | operator

structure State where
  /-- the positions of the open parentheses, the innermost first -/
  opened : List Nat
  mode : Mode

/-- a connective before the place of the error takes the blame for it -/
def blame (previous : Option Token) (otherwise : SyntaxError) : SyntaxError :=
  match previous with
  | some t => if t.kind.needsOperand then .missingOperand t.spelling t.position else otherwise
  | none => otherwise

/-- takes one token -/
def step (s : State) (t : Token) : Except SyntaxError State :=
  match s.mode, t.kind with
  | .operand _, .ident => .ok ⟨s.opened, .operator⟩
  | .operand _, .not => .ok ⟨s.opened, .operand (some t)⟩
  | .operand _, .opening => .ok ⟨t.position :: s.opened, .operand (some t)⟩
  | .operand previous, .connective _ => .error (blame previous (.missingOperand t.spelling t.position))
  | .operand previous, .closing => .error (blame previous (.unmatched t.position))
  | .operator, .connective _ => .ok ⟨s.opened, .operand (some t)⟩
  | .operator, .closing =>
    match s.opened with
    | [] => .error (.unmatched t.position)
    | _ :: outer => .ok ⟨outer, .operator⟩
  | .operator, _ =>
    match s.opened with
    | [] => .error (.expectedEnd t.spelling t.position)
    | _ :: _ => .error (.expectedClosing t.spelling t.position)

/-- the text is over -/
def stop (s : State) : Except SyntaxError Unit :=
  match s.mode, s.opened with
  | .operand none, _ => .error .empty
  | .operand (some t), _ => .error (blame (some t) (.unclosed t.position))
  | .operator, [] => .ok ()
  | .operator, opened :: _ => .error (.unclosed opened)

/-- takes the tokens one by one; an unknown character is an error once it is reached -/
def run (fault : Option UnknownChar) (s : State) : List Token → Except SyntaxError Unit
  | [] =>
    match fault with
    | some u => .error (.unknownChar u)
    | none => stop s
  | t :: rest => do
    let next ← step s t
    run fault next rest

end Scan

/-- scans the tokens of a text -/
def scan (l : Lexed) : Except SyntaxError Unit := Scan.run l.fault ⟨[], .operand none⟩ l.tokens

namespace Scan

open Sequitur.Parser Sequitur.Grammar

variable {fault : Option UnknownChar} {op : Connective} {room : Nat} {read : Reader} {tokens rest rest' : List Token}
  {sub left : Sub} {e : SyntaxError} {t : Token} {previous : Option Token} {outer : List Nat}

/-! ## Single steps -/

theorem run_connective (ht : t.kind = .connective op) :
    run fault ⟨outer, .operator⟩ (t :: rest) = run fault ⟨outer, .operand (some t)⟩ rest := by
  simp only [run, step, ht]
  rfl

theorem run_not (ht : t.kind = .not) :
    run fault ⟨outer, .operand previous⟩ (t :: rest) = run fault ⟨outer, .operand (some t)⟩ rest := by
  simp only [run, step, ht]
  rfl

theorem run_ident (ht : t.kind = .ident) :
    run fault ⟨outer, .operand previous⟩ (t :: rest) = run fault ⟨outer, .operator⟩ rest := by
  simp only [run, step, ht]
  rfl

theorem run_opening (ht : t.kind = .opening) :
    run fault ⟨outer, .operand previous⟩ (t :: rest) = run fault ⟨t.position :: outer, .operand (some t)⟩ rest := by
  simp only [run, step, ht]
  rfl

theorem run_closing {opened : Nat} (ht : t.kind = .closing) :
    run fault ⟨opened :: outer, .operator⟩ (t :: rest) = run fault ⟨outer, .operator⟩ rest := by
  simp only [run, step, ht]
  rfl

theorem run_of_step_error {s : State} (h : step s t = .error e) : run fault s (t :: rest) = .error e := by
  rw [run, h]
  rfl

/-- where the tokens run out, an unknown character comes before any other error -/
theorem run_nil {s : State} (h : stop s = .error e) : run fault s [] = .error (atEnd fault e) := by
  cases fault with
  | none => exact h
  | some u => rfl

/-! ## Where readers start -/

/-- a reader starts at the start of the text, behind a parenthesis that the text does not end with, or behind a connective
that an operand can follow -/
inductive Ready (fault : Option UnknownChar) : Option Token → List Token → Prop where
  | start {tokens : List Token} : Ready fault none tokens
  | inside {t : Token} {tokens : List Token} :
      t.kind = .opening → ¬ (tokens = [] ∧ fault = none) → Ready fault (some t) tokens
  | behind {t u : Token} {tail : List Token} : u.kind.startsOperand = true → Ready fault (some t) (u :: tail)

/-- at such a place no connective takes the blame for a token that begins no operand -/
theorem Ready.blame_eq (h : Ready fault previous (t :: rest)) (ht : t.kind.startsOperand = false) (e : SyntaxError) :
    blame previous e = e := by
  cases h with
  | start => rfl
  | inside ho _ => simp [blame, ho, Kind.needsOperand]
  | behind hu =>
    rw [ht] at hu
    cases hu

theorem blame_of_needsOperand (ht : t.kind.needsOperand = true) (e : SyntaxError) :
    blame (some t) e = .missingOperand t.spelling t.position :=
  if_pos ht

/-- a connective is passed only if the next reader can start behind it -/
theorem ready_of_operandAfter (h : operandAfter fault t rest = .ok ()) : Ready fault (some t) rest := by
  obtain ⟨u, tail, rfl, hu⟩ := operandAfter_ok h
  exact .behind hu

/-- a connective that is not passed is the error of the scan as well -/
theorem run_of_operandAfter_error (ht : t.kind.needsOperand = true) (h : operandAfter fault t rest = .error e) :
    run fault ⟨outer, .operand (some t)⟩ rest = .error e := by
  rcases operandAfter_error h with ⟨rfl, rfl⟩ | ⟨u, tail, rfl, hu, rfl⟩
  · apply run_nil
    simp only [stop, blame_of_needsOperand ht]
  · apply run_of_step_error
    cases hk : u.kind with
    | connective op => simp only [step, hk, blame_of_needsOperand ht]
    | closing => simp only [step, hk, blame_of_needsOperand ht]
    | not => simp [hk, Kind.startsOperand] at hu
    | opening => simp [hk, Kind.startsOperand] at hu
    | ident => simp [hk, Kind.startsOperand] at hu

/-! ## Reading on and scanning on -/

/-- the error is that of a reader that gave up for depth -/
def TooDeep (e : SyntaxError) : Prop := ∃ position, e = .tooDeep position

theorem tooDeep_of_bounded_error {f : Formula} {height position : Nat} (h : Sub.bounded f height position = .error e) :
    TooDeep e := ⟨position, (bounded_error h).1⟩

/-- a reader that takes the scan from the place of an operand to behind it, and fails where the scan fails -/
structure Follows (fault : Option UnknownChar) (read : Reader) : Prop where
  ok : ∀ {tokens sub rest}, read tokens = .ok (sub, rest) → ∀ outer previous,
    run fault ⟨outer, .operand previous⟩ tokens = run fault ⟨outer, .operator⟩ rest
  error : ∀ {tokens e}, read tokens = .error e → ¬ TooDeep e → ∀ outer previous, Ready fault previous tokens →
    run fault ⟨outer, .operand previous⟩ tokens = .error e

/-- a loop that ends has taken the scan along -/
theorem run_of_loop (h : Follows fault read) (hloop : Loop fault op read left rest sub rest') :
    run fault ⟨outer, .operator⟩ rest = run fault ⟨outer, .operator⟩ rest' := by
  induction hloop with
  | stop _ => rfl
  | turn ht _ hread _ _ ih => rw [run_connective ht, h.ok hread, ih]

/-- a loop that fails has taken it to the same error -/
theorem run_of_loopFails (h : Follows fault read) (hloop : LoopFails fault op read left rest e) (he : ¬ TooDeep e) :
    run fault ⟨outer, .operator⟩ rest = .error e := by
  induction hloop with
  | lacking ht ha =>
    rw [run_connective ht]
    exact run_of_operandAfter_error (by rw [ht]; rfl) ha
  | operand ht ha hread =>
    rw [run_connective ht]
    exact h.error hread he _ _ (ready_of_operandAfter ha)
  | tall _ _ _ hj => exact absurd (tooDeep_of_bounded_error hj) he
  | later ht _ hread _ _ ih => rw [run_connective ht, h.ok hread, ih he]

theorem follows_chain (hc : Consumes read) (h : Follows fault read) : Follows fault (chain fault op read) := by
  constructor
  · intro tokens sub rest' hok outer previous
    obtain ⟨first, rest, hread, hloop⟩ := chain_ok hc hok
    rw [h.ok hread, run_of_loop h hloop]
  · intro tokens e herr he outer previous hready
    rcases chain_error herr with hread | ⟨first, rest, hread, hloop⟩
    · exact h.error hread he outer previous hready
    · rw [h.ok hread]
      exact run_of_loopFails h hloop he

theorem follows_formulaOf (hs : Sound .negation room read) (h : Follows fault read) :
    Follows fault (formulaOf fault read) := by
  have hand : Sound (.joined .and) room (chain fault .and read) := sound_chain hs
  have hor : Sound (.joined .or) room (chain fault .or (chain fault .and read)) := sound_chain hand
  have himpl : Sound (.joined .impl) room (chain fault .impl (chain fault .or (chain fault .and read))) :=
    sound_chain hor
  exact follows_chain himpl.consumes
    (follows_chain hor.consumes (follows_chain hand.consumes (follows_chain hs.consumes h)))

/-! ## Operands -/

/-- behind a complete formula a group fails as the scan does, since no connective comes next -/
theorem run_of_close_error {opened : Nat} (hend : Ends biconditional rest)
    (hc : close fault opened sub rest = .error e) : run fault ⟨opened :: outer, .operator⟩ rest = .error e := by
  rcases close_error hc with ⟨rfl, rfl⟩ | ⟨t, tail, rfl, hnot, rfl⟩
  · exact run_nil rfl
  · apply run_of_step_error
    cases hk : t.kind with
    | connective op => exact absurd hk (hend.not_connective op)
    | closing => exact absurd hk hnot
    | not => simp only [step, hk]
    | opening => simp only [step, hk]
    | ident => simp only [step, hk]

/-- an operand is followed if what stands inside it is -/
theorem follows_unaryOf {inner : Option Reader}
    (h : ∀ read, inner = some read → (∃ less, Sound .negation less read) ∧ Follows fault read) :
    Follows fault (unaryOf fault inner) := by
  constructor
  · intro tokens sub rest hok outer previous
    cases operand_of_ok hok with
    | var ht => exact run_ident ht
    | negation ht _ hi hread _ => rw [run_not ht, (h _ hi).2.ok hread]
    | group ho hi hread hc =>
      obtain ⟨⟨less, hs⟩, hf⟩ := h _ hi
      rw [run_opening ho, (follows_formulaOf hs hf).ok hread, run_closing hc]
  · intro tokens e herr he outer previous hready
    cases operandFails_of_error herr with
    | nothing =>
      cases hready with
      | start => exact run_nil rfl
      | inside _ hne =>
        cases fault with
        | none => exact absurd ⟨rfl, rfl⟩ hne
        | some u => rfl
    | connective ht =>
      apply run_of_step_error
      simp only [step, ht, hready.blame_eq (by rw [ht]; rfl)]
    | closing ht =>
      apply run_of_step_error
      simp only [step, ht, hready.blame_eq (by rw [ht]; rfl)]
    | lacking ht ha =>
      rw [run_not ht]
      exact run_of_operandAfter_error (by rw [ht]; rfl) ha
    | unclosed ht hf =>
      rw [run_opening ht, hf]
      simp [run, stop, blame, ht, Kind.needsOperand]
    | noRoom _ _ => exact absurd ⟨_, rfl⟩ he
    | negated ht ha hi hread =>
      rw [run_not ht]
      exact (h _ hi).2.error hread he _ _ (ready_of_operandAfter ha)
    | tall _ _ _ _ hn => exact absurd (tooDeep_of_bounded_error hn) he
    | grouped ht hne hi hread =>
      obtain ⟨⟨less, hs⟩, hf⟩ := h _ hi
      rw [run_opening ht]
      exact (follows_formulaOf hs hf).error hread he _ _ (.inside ht hne)
    | unended ht _ hi hread hc =>
      obtain ⟨⟨less, hs⟩, hf⟩ := h _ hi
      obtain ⟨_, hend⟩ := sound_formulaOf hs _ _ _ hread
      rw [run_opening ht, (follows_formulaOf hs hf).ok hread]
      exact run_of_close_error hend hc

theorem follows_unary (fault : Option UnknownChar) (room : Nat) : Follows fault (unary fault room) := by
  apply unary_induction (motive := fun _ read => Follows fault read)
  intro room inner hinner
  apply follows_unaryOf
  intro read hi
  obtain ⟨less, _, rfl, hf⟩ := hinner read hi
  exact ⟨⟨less, sound_unary fault less⟩, hf⟩

theorem follows_formula (fault : Option UnknownChar) (room : Nat) : Follows fault (formula fault room) :=
  follows_formulaOf (sound_unary fault room) (follows_unary fault room)

/-! ## Whole texts -/

/-- nothing may follow a complete formula, for the scan as for the parser -/
theorem run_eq_finish (hend : Ends biconditional rest) (f : Formula) :
    run fault ⟨[], .operator⟩ rest = (finish fault f rest).map fun _ => () := by
  cases rest with
  | nil => cases fault <;> rfl
  | cons t rest =>
    cases hk : t.kind with
    | connective op => exact absurd hk (hend.not_connective op)
    | closing => simp [run, step, hk, finish, bind, Except.bind, Except.map]
    | not => simp [run, step, hk, finish, bind, Except.bind, Except.map]
    | opening => simp [run, step, hk, finish, bind, Except.bind, Except.map]
    | ident => simp [run, step, hk, finish, bind, Except.bind, Except.map]

/-- short of depth, the parser and the scan come to the same -/
theorem scan_eq_whole {l : Lexed} (h : ∀ position, whole l ≠ .error (.tooDeep position)) :
    scan l = (whole l).map fun _ => () := by
  obtain ⟨tokens, fault⟩ := l
  have hf := follows_formula fault maxNesting
  cases hread : formula fault maxNesting tokens with
  | error e =>
    have hw : whole ⟨tokens, fault⟩ = .error e := by rw [whole, hread]; rfl
    have he : ¬ TooDeep e := by
      rintro ⟨position, rfl⟩
      exact h position hw
    rw [hw, scan, hf.error hread he [] none .start]
    rfl
  | ok r =>
    obtain ⟨sub, rest⟩ := r
    obtain ⟨_, hend⟩ := sound_formula fault maxNesting tokens sub rest hread
    have hw : whole ⟨tokens, fault⟩ = finish fault sub.formula rest := by rw [whole, hread]; rfl
    rw [hw, scan, hf.ok hread [] none]
    exact run_eq_finish hend sub.formula

end Scan

/-- **The parser agrees with the scan.** Unless the parser gives up for depth, it accepts a text exactly if the scan does,
and it reports an error exactly if the scan reports that error. -/
theorem Formula.parse_agrees_with_scan (text : String) (h : ∀ position, Formula.parse text ≠ .error (.tooDeep position)) :
    ((∃ f, Formula.parse text = .ok f) ↔ scan (lex text) = .ok ()) ∧
      ∀ e, Formula.parse text = .error e ↔ scan (lex text) = .error e := by
  have hscan : scan (lex text) = (Formula.parse text).map fun _ => () := Scan.scan_eq_whole h
  rw [hscan]
  cases Formula.parse text with
  | ok f => simp [Except.map]
  | error e => simp [Except.map]

/-- a text that ends behind a connective, inside a group: the connective is the error, not the parenthesis -/
theorem Formula.parse_agrees_with_scan_dangling :
    (∀ position, Formula.parse "(P -> Q) & (R or" ≠ .error (.tooDeep position)) ∧
      ((∃ f, Formula.parse "(P -> Q) & (R or" = .ok f) ↔ scan (lex "(P -> Q) & (R or") = .ok ()) ∧
      ∀ e, Formula.parse "(P -> Q) & (R or" = .error e ↔ scan (lex "(P -> Q) & (R or") = .error e := by
  have hparse : Formula.parse "(P -> Q) & (R or" = .error (.missingOperand "or" 14) := rfl
  have h : ∀ position, Formula.parse "(P -> Q) & (R or" ≠ .error (.tooDeep position) := by
    intro position hdeep
    rw [hparse] at hdeep
    cases hdeep
  exact ⟨h, Formula.parse_agrees_with_scan _ h⟩

end Sequitur
