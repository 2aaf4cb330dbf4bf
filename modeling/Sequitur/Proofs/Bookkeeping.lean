/-
The books that the parser keeps.

A parser can keep count of the negations and groups that are open: one more when it goes into an operand, one less when it
comes out, and a failure when they are too many. It can also tell two failures apart that share one error, too many levels
and too tall a node. The counting parser here works in this way on a state of its own, the tokens to come and the count. The
readers of the parser have no state; they are told how much room is left, which is the count turned around.

Both are followed side by side (`Tallies`). What a level returns leaves the count as it was, whatever it was before, and a
formula is no taller than the tokens read for it are many: each node takes a token of its own. So a node can be refused for
its height only behind more than 1024 tokens, which no text of at most 1024 bytes has.

- `counts_negation` and `tallies_call`: each level counts and reads as the reader of the level reads, by induction on the
  tokens, with the loops (`tallies_turns`) inside;
- `books_of_call`: what a call leaves behind when it succeeds;
- `neverTall_of_size_le`: why a short text is too deep, told by the counting parser and by where it stands in the text.
-/
import Sequitur.Proofs.Depth
import Sequitur.Proofs.Ladder
import Sequitur.Proofs.Routes

namespace Sequitur

open Text Grammar

namespace Counted

/-- where a call stands: the tokens to come, and how many negations and groups are open -/
structure Stand where
  tokens : List Token
  depth : Nat
  deriving DecidableEq

/-- why a call fails -/
inductive Failure where
  /-- too many negations and groups are open -/
  | deep (position : Nat)
  /-- a node would be too tall -/
  | tall (position : Nat)
  /-- a group or a variable was asked for where a negation stands -/
  | negation (position : Nat)
  | other (e : SyntaxError)
  deriving DecidableEq

/-- the error that a failure is reported as; whole texts are not read from a group or a variable on, so `negation` has none -/
def Failure.error? : Failure → Option SyntaxError
  | deep p | tall p => some (.tooDeep p)
  | negation _ => none
  | other e => some e

/-- reads a subformula and goes on from where it ends -/
abbrev Counter := Stand → Except Failure (Sub × Stand)

/-- steps that look at no limit -/
def plain {α : Type} : Except SyntaxError α → Except Failure α := Except.mapError .other

/-- refuses a formula that is too tall -/
def checked (formula : Formula) (height position : Nat) : Except Failure Sub :=
  if height ≤ maxHeight then .ok ⟨formula, height⟩ else .error (.tall position)

/-- counts one level more, if that is not too many -/
def descend (position : Nat) (s : Stand) : Except Failure Stand :=
  let s := { s with depth := s.depth + 1 }
  if maxNesting < s.depth then .error (.deep position) else .ok s

/-- counts one level less -/
def ascend (s : Stand) : Stand := { s with depth := s.depth - 1 }

/-- goes one level deeper -/
def within (read : Counter) (position : Nat) : Counter := fun s => do
  let s ← descend position s
  read s

/-- goes on with `left` as long as `op` follows; each turn uses tokens up, so `bound` may be the tokens themselves -/
def turns (fault : Option UnknownChar) (op : Connective) (operand : Counter) : (bound : List Token) → Sub → Counter
  | [], left, s => .ok (left, s)
  | _ :: bound, left, s =>
    match s.tokens with
    | [] => .ok (left, s)
    | t :: rest =>
      if t.kind = .connective op then do
        plain (Parser.operandAfter fault t rest)
        let (right, s) ← operand { s with tokens := rest }
        let joined ← checked (.bin op left.formula right.formula) (max left.height right.height + 1) t.position
        turns fault op operand bound joined s
      else .ok (left, s)

/-- operands joined by `op`, folded to the left -/
def chain (fault : Option UnknownChar) (op : Connective) (operand : Counter) : Counter := fun s => do
  let (first, s) ← operand s
  turns fault op operand s.tokens first s

/-- a formula whose operands `operand` reads -/
def formula (fault : Option UnknownChar) (operand : Counter) : Counter :=
  chain fault .equiv (chain fault .impl (chain fault .or (chain fault .and operand)))

/-- a group or a variable; `inside` reads what stands in a group -/
def primary (fault : Option UnknownChar) (inside : Counter) : Counter := fun s =>
  match s.tokens with
  | [] => .error (.other (Parser.atEnd fault .empty))
  | t :: rest =>
    match t.kind with
    | .ident => .ok (.var t.spelling, { s with tokens := rest })
    | .connective _ => .error (.other (.missingOperand t.spelling t.position))
    | .closing => .error (.other (.unmatched t.position))
    | .not => .error (.negation t.position)
    | .opening =>
      if rest = [] ∧ fault = none then .error (.other (.unclosed t.position))
      else do
        let (sub, s) ← within inside t.position { s with tokens := rest }
        let s := ascend s
        let (sub, rest) ← plain (Parser.close fault t.position sub s.tokens)
        return (sub, { s with tokens := rest })

/-- a negation, a group or a variable; each level takes a token, so `bound` may be the tokens themselves -/
def negation (fault : Option UnknownChar) : (bound : List Token) → Counter
  | [], _ => .error (.other (Parser.atEnd fault .empty))
  | _ :: bound, s =>
    match s.tokens with
    | [] => .error (.other (Parser.atEnd fault .empty))
    | t :: rest =>
      if t.kind = .not then do
        plain (Parser.operandAfter fault t rest)
        let (sub, s) ← within (negation fault bound) t.position { s with tokens := rest }
        let negated ← checked (.not sub.formula) (sub.height + 1) t.position
        return (negated, ascend s)
      else primary fault (formula fault (negation fault bound)) s

/-- what reads a level -/
def levelOn (fault : Option UnknownChar) (bound : List Token) : Level → Counter
  | .joined .equiv => formula fault (negation fault bound)
  | .joined .impl => chain fault .impl (chain fault .or (chain fault .and (negation fault bound)))
  | .joined .or => chain fault .or (chain fault .and (negation fault bound))
  | .joined .and => chain fault .and (negation fault bound)
  | .negation => negation fault bound
  | .primary => primary fault (formula fault (negation fault bound))

/-- a call of a level -/
def call (fault : Option UnknownChar) (level : Level) : Counter := fun s => levelOn fault s.tokens level s

/-- reads a whole text, nothing being open in the beginning -/
def parse (text : String) : Except Failure Formula := do
  let l := lex text
  let (sub, s) ← call l.fault biconditional ⟨l.tokens, 0⟩
  plain (Parser.finish l.fault sub.formula s.tokens)

/-! ## Side by side -/

/-- what a failure on `size` tokens says: a node too tall takes more tokens than that, and no other failure is for depth -/
def Failure.Grounded (size : Nat) : Failure → Prop
  | deep _ | negation _ => True
  | tall _ => maxHeight < size
  | other e => ∀ p, e ≠ .tooDeep p

/-- the counting parser comes to what the parser comes to, or both fail, with a failure that stands for the error -/
inductive Tallies {α β : Type} (size : Nat) (A : α → β → Prop) : Except Failure α → Except SyntaxError β → Prop where
  | ok {a : α} {b : β} : A a b → Tallies size A (.ok a) (.ok b)
  | error {failure : Failure} {e : SyntaxError} : failure.error? = some e → failure.Grounded size →
      Tallies size A (.error failure) (.error e)

/-- one subformula, the same tokens after it, and the count at `depth`; of `size` tokens it is no taller than those gone -/
inductive Back (depth size : Nat) : Sub × Stand → Sub × List Token → Prop where
  | intro {sub : Sub} {rest : List Token} : sub.height + rest.length ≤ size →
      Back depth size (sub, ⟨rest, depth⟩) (sub, rest)

/-- on at most `most` tokens a level, entered at a depth, tallies with a reader -/
def Counts (most depth : Nat) (count : Counter) (read : Reader) : Prop :=
  ∀ tokens, tokens.length ≤ most →
    Tallies tokens.length (Back depth tokens.length) (count ⟨tokens, depth⟩) (read tokens)

/-- the same one level deeper, for a reader that is there only if that is not too deep -/
structure Inside (most depth : Nat) (count : Counter) (inner : Option Reader) : Prop where
  full : inner = none → maxNesting ≤ depth
  counts : ∀ read, inner = some read → depth < maxNesting ∧ Counts most (depth + 1) count read

section Rules

variable {α β γ δ : Type} {size size' : Nat} {A : α → β → Prop} {B : γ → δ → Prop}

theorem Tallies.bind {first : Except Failure α} {first' : Except SyntaxError β} {second : α → Except Failure γ}
    {second' : β → Except SyntaxError δ} (h : Tallies size A first first')
    (hsecond : ∀ a b, A a b → Tallies size B (second a) (second' b)) :
    Tallies size B (first >>= second) (first' >>= second') := by
  cases h with
  | ok ha => exact hsecond _ _ ha
  | error he hgrounded => exact .error he hgrounded

/-- more tokens allow for the same failures -/
theorem Failure.Grounded.of_le {failure : Failure} (h : failure.Grounded size) (hle : size ≤ size') :
    failure.Grounded size' := by
  cases failure with
  | deep _ => trivial
  | tall _ => exact Nat.lt_of_lt_of_le h hle
  | negation _ => trivial
  | other _ => exact h

/-- what tallies on some tokens does so on more -/
theorem Tallies.of_le {x : Except Failure α} {y : Except SyntaxError β} (h : Tallies size A x y) (hle : size ≤ size') :
    Tallies size' A x y := by
  cases h with
  | ok ha => exact .ok ha
  | error he hgrounded => exact .error he (hgrounded.of_le hle)

theorem Tallies.other {e : SyntaxError} (h : ∀ p, e ≠ .tooDeep p) : Tallies size A (.error (.other e)) (.error e) :=
  .error rfl h

theorem tallies_plain (size : Nat) {x : Except SyntaxError α} (h : ∀ p, x ≠ .error (.tooDeep p)) :
    Tallies size Eq (plain x) x := by
  cases x with
  | ok a => exact .ok rfl
  | error e =>
    apply Tallies.other
    rintro p rfl
    exact h p rfl

/-- the height of a node is looked at in one way, and refused only where the tokens allow for it -/
theorem tallies_checked (f : Formula) {height : Nat} (position : Nat) (h : height ≤ size) :
    Tallies size (fun a b => a = b ∧ a.height = height) (checked f height position) (Sub.bounded f height position) := by
  unfold checked Sub.bounded
  by_cases hle : height ≤ maxHeight
  · rw [if_pos hle, if_pos hle]
    exact .ok ⟨rfl, rfl⟩
  · rw [if_neg hle, if_neg hle]
    have htall : maxHeight < size := by omega
    exact .error rfl htall

end Rules

/-! ## Level by level -/

section Levels

variable {fault : Option UnknownChar} {op : Connective} {most depth size : Nat} {count : Counter} {read : Reader}
  {inner : Option Reader} {tokens rest bound : List Token} {t : Token}

/-- along the loop of a chain, the height so far goes into the tokens that are gone -/
theorem tallies_turns (h : Counts most depth count read) (bound : List Token) (left : Sub) (hmost : tokens.length ≤ most)
    (hsize : left.height + tokens.length ≤ size) :
    Tallies size (Back depth size) (turns fault op count bound left ⟨tokens, depth⟩)
      (Parser.more fault op read bound left tokens) := by
  induction bound generalizing left tokens with
  | nil => exact .ok (.intro hsize)
  | cons b bound ih =>
    cases tokens with
    | nil => exact .ok (.intro hsize)
    | cons t rest =>
      simp only [turns, Parser.more]
      rw [List.length_cons] at hmost hsize
      by_cases ht : t.kind = .connective op
      · rw [if_pos ht, if_pos ht]
        refine (tallies_plain size fun _ => operandAfter_ne_tooDeep).bind ?_
        intro _ _ _
        refine ((h rest (by omega)).of_le (by omega)).bind ?_
        rintro _ _ @⟨right, after, hright⟩
        have hheight : max left.height right.height + 1 ≤ size := by omega
        refine (tallies_checked _ t.position hheight).bind ?_
        rintro joined _ ⟨rfl, hjoined⟩
        have hgone : joined.height + after.length ≤ size := by
          rw [hjoined]
          omega
        exact ih joined (by omega) hgone
      · rw [if_neg ht, if_neg ht]
        exact .ok (.intro hsize)

theorem counts_chain (h : Counts most depth count read) :
    Counts most depth (chain fault op count) (Parser.chain fault op read) := by
  intro tokens hmost
  refine (h tokens hmost).bind ?_
  rintro _ _ @⟨first, after, hfirst⟩
  exact tallies_turns h after first (by omega) hfirst

theorem counts_formula (h : Counts most depth count read) :
    Counts most depth (formula fault count) (Parser.formulaOf fault read) :=
  counts_chain (counts_chain (counts_chain (counts_chain h)))

theorem Inside.formula (h : Inside most depth count inner) :
    Inside most depth (formula fault count) (inner.map (Parser.formulaOf fault)) := by
  refine ⟨fun hnone => h.full (Option.map_eq_none_iff.1 hnone), ?_⟩
  intro read hread
  obtain ⟨operand, hoperand, rfl⟩ := Option.map_eq_some_iff.1 hread
  obtain ⟨hlt, hcounts⟩ := h.counts operand hoperand
  exact ⟨hlt, counts_formula hcounts⟩

/-- a level deeper is counted where the parser has room for one -/
theorem Inside.tallies (h : Inside most depth count inner) (hmost : tokens.length ≤ most) (position : Nat) :
    Tallies tokens.length (Back (depth + 1) tokens.length) (within count position ⟨tokens, depth⟩)
      (Parser.deeper inner position tokens) := by
  unfold within descend
  cases inner with
  | none =>
    have hfull : maxNesting < depth + 1 := Nat.lt_succ_of_le (h.full rfl)
    simp only [if_pos hfull]
    exact .error rfl trivial
  | some read =>
    obtain ⟨hlt, hcounts⟩ := h.counts read rfl
    have hroom : ¬ maxNesting < depth + 1 := by omega
    simp only [if_neg hroom]
    exact hcounts tokens hmost

/-- the end of a group takes a token more, and nothing from the count -/
theorem tallies_close (opened : Nat) {sub : Sub} (h : sub.height + rest.length ≤ size) :
    Tallies size (Back depth size)
      (do let (sub, rest) ← plain (Parser.close fault opened sub rest); return (sub, ⟨rest, depth⟩))
      (Parser.close fault opened sub rest) := by
  cases hclose : Parser.close fault opened sub rest with
  | error e =>
    apply Tallies.other
    rintro p rfl
    exact close_ne_tooDeep hclose
  | ok p =>
    obtain ⟨after, rest'⟩ := p
    obtain ⟨closed, -, rfl, rfl⟩ := Parser.close_ok hclose
    rw [List.length_cons] at h
    have hgone : after.height + rest'.length ≤ size := by omega
    exact .ok (.intro hgone)

/-- a group or a variable, where no negation stands -/
theorem tallies_primary (h : Inside most depth count inner) (hmost : rest.length ≤ most) (hne : t.kind ≠ .not) :
    Tallies (t :: rest).length (Back depth (t :: rest).length)
      (primary fault (formula fault count) ⟨t :: rest, depth⟩) (Parser.unaryOf fault inner (t :: rest)) := by
  cases hkind : t.kind with
  | connective op =>
    simp only [primary, Parser.unaryOf, hkind]
    exact .other (by simp)
  | not => exact absurd hkind hne
  | closing =>
    simp only [primary, Parser.unaryOf, hkind]
    exact .other (by simp)
  | ident =>
    simp only [primary, Parser.unaryOf, hkind]
    have hgone : 1 + rest.length ≤ (t :: rest).length := Nat.le_of_eq (Nat.add_comm 1 _)
    exact .ok (.intro hgone)
  | opening =>
    simp only [primary, Parser.unaryOf, hkind]
    by_cases hnil : rest = [] ∧ fault = none
    · rw [if_pos hnil, if_pos hnil]
      exact .other (by simp)
    · rw [if_neg hnil, if_neg hnil]
      have hinside : Inside most depth (formula fault count) (inner.map (Parser.formulaOf fault)) := h.formula
      refine ((hinside.tallies hmost t.position).of_le (Nat.le_succ _)).bind ?_
      rintro _ _ @⟨sub, after, hsub⟩
      exact tallies_close t.position (Nat.le_succ_of_le hsub)

/-- an operand has the reader of the next level inside it, unless all levels are open -/
theorem exists_inside (h : ∀ depth, Counts most depth count (Parser.unary fault (maxNesting - depth))) (depth : Nat) :
    ∃ inner, Parser.unary fault (maxNesting - depth) = Parser.unaryOf fault inner ∧ Inside most depth count inner := by
  cases hroom : maxNesting - depth with
  | zero => exact ⟨none, rfl, fun _ => by omega, nofun⟩
  | succ less =>
    refine ⟨some (Parser.unary fault less), rfl, nofun, ?_⟩
    intro read hread
    cases hread
    have hless : maxNesting - (depth + 1) = less := by omega
    have hlt : depth < maxNesting := by omega
    exact ⟨hlt, hless ▸ h (depth + 1)⟩

/-- negations count down the tokens, and each one goes a level deeper and comes back -/
theorem counts_negation (fault : Option UnknownChar) (bound : List Token) (depth : Nat) :
    Counts bound.length depth (negation fault bound) (Parser.unary fault (maxNesting - depth)) := by
  induction bound generalizing depth with
  | nil =>
    intro tokens hmost
    have hnil : tokens = [] := List.eq_nil_of_length_eq_zero (Nat.le_zero.1 hmost)
    subst hnil
    cases maxNesting - depth <;> exact .other fun _ => atEnd_ne_tooDeep nofun
  | cons b bound ih =>
    intro tokens hmost
    obtain ⟨inner, heq, hinside⟩ := exists_inside ih depth
    rw [heq]
    cases tokens with
    | nil => exact .other fun _ => atEnd_ne_tooDeep nofun
    | cons t rest =>
      have hrest : rest.length ≤ bound.length := Nat.le_of_succ_le_succ hmost
      simp only [negation]
      by_cases ht : t.kind = .not
      · rw [if_pos ht]
        simp only [Parser.unaryOf, ht]
        refine (tallies_plain _ fun _ => operandAfter_ne_tooDeep).bind ?_
        intro _ _ _
        refine ((hinside.tallies hrest t.position).of_le (Nat.le_succ _)).bind ?_
        -- the operand comes back with one more open; only when it is negated is that taken back
        rintro _ _ @⟨sub, after, hsub⟩
        have hheight : sub.height + 1 ≤ (t :: rest).length := by
          rw [List.length_cons]
          omega
        refine (tallies_checked _ t.position hheight).bind ?_
        rintro negated _ ⟨rfl, hnegated⟩
        have hgone : negated.height + after.length ≤ (t :: rest).length := by
          rw [hnegated, List.length_cons]
          omega
        exact .ok (.intro hgone)
      · rw [if_neg ht]
        exact tallies_primary hinside hrest ht

theorem levelOn_joined (fault : Option UnknownChar) (bound : List Token) (op : Connective) :
    levelOn fault bound (.joined op) = chain fault op (levelOn fault bound (operand op)) := by
  cases op <;> rfl

/-- a call tallies with the reader of its level that has the rest of the room; where a negation stands, a group or a
variable is not looked for -/
theorem tallies_call (fault : Option UnknownChar) (level : Level) (tokens : List Token) (depth : Nat)
    (hstart : level = .primary → ∀ t ∈ tokens.head?, t.kind ≠ .not) :
    Tallies tokens.length (Back depth tokens.length) (call fault level ⟨tokens, depth⟩)
      (reader fault (maxNesting - depth) level tokens) := by
  have hnegation := counts_negation fault tokens
  cases level with
  | joined op =>
    have hjoined : Counts tokens.length depth (levelOn fault tokens (.joined op))
        (reader fault (maxNesting - depth) (.joined op)) := by
      apply joined_induction
        (motive := fun level => Counts tokens.length depth (levelOn fault tokens level) (reader fault (maxNesting - depth) level))
        (hnegation depth)
      intro op hoperand
      rw [levelOn_joined, reader_joined]
      exact counts_chain hoperand
    exact hjoined tokens (Nat.le_refl _)
  | negation => exact hnegation depth tokens (Nat.le_refl _)
  | primary =>
    obtain ⟨inner, heq, hinside⟩ := exists_inside hnegation depth
    simp only [reader, heq]
    cases tokens with
    | nil => exact .other fun _ => atEnd_ne_tooDeep nofun
    | cons t rest => exact tallies_primary hinside (Nat.le_succ _) (hstart rfl t rfl)

end Levels

/-! ## What a call leaves behind -/

/-- a call of a level leaves the count as it was, has read tokens, and returns a formula that is no taller than it says, than
the limit and than these tokens are many; behind joined operands no connective follows that would go on with them -/
structure Books (level : Level) (start : Stand) (sub : Sub) (stand : Stand) : Prop where
  depth_eq : stand.depth = start.depth
  read : ∃ used, used ≠ [] ∧ start.tokens = used ++ stand.tokens ∧ sub.height ≤ used.length
  height_eq : sub.height = sub.formula.height
  height_le : sub.height ≤ 1024
  ends : ∀ op, level = .joined op → Ends level stand.tokens

section Calls

variable {fault : Option UnknownChar} {level : Level} {room : Nat} {tokens rest : List Token} {sub : Sub} {start stand : Stand}

/-- the reader of each level is sound, at the level of negations where it is one of primaries -/
theorem exists_reading (h : reader fault room level tokens = .ok (sub, rest)) :
    (∃ level', Reading level' room tokens sub rest) ∧ ∀ op, level = .joined op → Ends level rest := by
  cases level with
  | joined op =>
    rw [reader_joined] at h
    obtain ⟨hreading, hends⟩ := sound_chain (sound_reader fault room op) tokens sub rest h
    exact ⟨⟨_, hreading⟩, fun _ _ => hends⟩
  | negation => exact ⟨⟨_, (sound_unary fault room tokens sub rest h).1⟩, nofun⟩
  | primary => exact ⟨⟨_, (sound_unary fault room tokens sub rest h).1⟩, nofun⟩

theorem books_of_call (h : call fault level start = .ok (sub, stand)) : Books level start sub stand := by
  obtain ⟨tokens, depth⟩ := start
  have hstart : level = .primary → ∀ t ∈ tokens.head?, t.kind ≠ .not := by
    rintro rfl t ht hnot
    obtain ⟨rest, rfl⟩ := List.head?_eq_some_iff.1 ht
    simp only [call, levelOn, primary, hnot] at h
    cases h
  have htallies := tallies_call fault level tokens depth hstart
  rw [h] at htallies
  cases hread : reader fault (maxNesting - depth) level tokens with
  | error e =>
    rw [hread] at htallies
    cases htallies
  | ok p =>
    rw [hread] at htallies
    obtain ⟨_, rest⟩ := p
    obtain @⟨_, _, @⟨_, _, hgone⟩⟩ := htallies
    obtain ⟨⟨level', hreading⟩, hends⟩ := exists_reading hread
    obtain ⟨used, n, rfl, hderived, -⟩ := hreading.derived
    obtain ⟨t, tail, rfl, -⟩ := hderived.starts
    rw [List.length_append] at hgone
    exact ⟨rfl, ⟨t :: tail, List.cons_ne_nil _ _, rfl, Nat.le_of_add_le_add_right hgone⟩, hreading.height_eq,
      hreading.height_le, hends⟩

end Calls

end Counted

/-! ## How many tokens there are -/

theorem Cursor.length_drain_le (fuel : Nat) (c : Cursor) : (c.drain fuel).1.tokens.length ≤ fuel := by
  induction fuel generalizing c with
  | zero => exact Nat.le_refl _
  | succ fuel ih =>
    unfold drain
    split
    · exact Nat.zero_le _
    · exact Nat.zero_le _
    · exact Nat.succ_le_succ (ih _)

theorem Text.length_le_byteSize (cs : List Char) : cs.length ≤ byteSize cs := by
  induction cs with
  | nil => exact Nat.le_refl _
  | cons c cs ih =>
    have hc : 0 < c.utf8Size := c.utf8Size_pos
    rw [List.length_cons, byteSize_cons]
    omega

/-- every token takes a byte -/
theorem length_tokens_le (text : String) : (lex text).tokens.length ≤ text.utf8ByteSize :=
  calc (lex text).tokens.length ≤ text.toList.length := Cursor.length_drain_le _ _
    _ ≤ byteSize text.toList := length_le_byteSize _
    _ = text.utf8ByteSize := byteSize_toList text

/-- each node takes a token of its own -/
theorem Grammar.Derives.height_le_length {level : Level} {used : List Token} {f : Formula} {n : Nat}
    (h : Derives level used f n) : f.height ≤ used.length := by
  induction h with
  | single _ ih => exact ih
  | fold _ _ _ ihl ihr =>
    rw [Formula.height, List.length_append, List.length_cons]
    omega
  | plain _ ih => exact ih
  | negate _ _ ih => exact Nat.succ_le_succ ih
  | var _ => exact Nat.le_refl _
  | group _ _ _ ih =>
    rw [List.length_cons, List.length_append]
    omega

/-- and so does the node that a negation or a connective builds -/
theorem Grammar.Node.height_le_length {before after : List Token} {t : Token} {f : Formula} (h : Node before t after f) :
    f.height ≤ (before ++ t :: after).length := by
  cases h with
  | negation _ hd =>
    have hle := hd.height_le_length
    simp only [Formula.height, List.length_append, List.length_cons]
    omega
  | joined _ hl _ hr _ =>
    have hleft := hl.height_le_length
    have hright := hr.height_le_length
    simp only [Formula.height, List.length_append, List.length_cons]
    omega

/-! ## Texts -/

namespace Counted

/-- a text that is never refused for the height of a node: if it is too deep, then because 128 open parentheses and pending
negations enclose another one -/
structure NeverTall (text : String) : Prop where
  ne_tall : ∀ p, parse text ≠ .error (.tall p)
  deep : ∀ p, Formula.parse text = .error (.tooDeep p) → parse text = .error (.deep p)
  nested : ∀ p, Formula.parse text = .error (.tooDeep p) → ∃ before t after,
    (lex text).tokens = before ++ t :: after ∧ t.position = p ∧ t.Encloses ∧ (enclosing before).length = 128

section Texts

variable {text : String} {p : Nat}

/-- nothing is open in the beginning, so the parser starts with all of its room -/
theorem tallies_parse (text : String) :
    Tallies (lex text).tokens.length Eq (parse text) (Formula.parse text) := by
  refine (tallies_call (lex text).fault biconditional (lex text).tokens 0 nofun).bind ?_
  rintro _ _ @⟨sub, rest, -⟩
  exact tallies_plain _ fun _ => finish_ne_tooDeep

theorem ne_tall_of_size_le (h : text.utf8ByteSize ≤ 1024) (p : Nat) : parse text ≠ .error (.tall p) := by
  intro htall
  have htallies := tallies_parse text
  rw [htall] at htallies
  generalize Formula.parse text = outcome at htallies
  cases htallies with
  | error _ hgrounded =>
    have hmore : 1024 < (lex text).tokens.length := hgrounded
    have hle := length_tokens_le text
    omega

/-- the counting parser tells which of the two limits was exceeded -/
theorem deep_or_tall (h : Formula.parse text = .error (.tooDeep p)) :
    parse text = .error (.deep p) ∨ parse text = .error (.tall p) := by
  have htallies := tallies_parse text
  rw [h] at htallies
  generalize parse text = outcome at htallies ⊢
  cases htallies with
  | @error failure _ he hgrounded =>
    cases failure with
    | deep q =>
      cases he
      exact Or.inl rfl
    | tall q =>
      cases he
      exact Or.inr rfl
    | negation q => cases he
    | other e =>
      cases he
      exact absurd rfl (hgrounded p)

theorem neverTall_of_size_le (h : text.utf8ByteSize ≤ 1024) : NeverTall text := by
  refine ⟨ne_tall_of_size_le h, fun p hdeep => ?_, fun p hdeep => ?_⟩
  · exact (deep_or_tall hdeep).resolve_right (ne_tall_of_size_le h p)
  · obtain ⟨before, t, after, htokens, hp, hexceeds⟩ := exceedsAt_of_whole hdeep
    refine ⟨before, t, after, htokens, hp, ?_⟩
    rcases hexceeds with ⟨hencloses, hfull⟩ | ⟨hnode, hheight, -⟩
    · exact ⟨hencloses, hfull⟩
    · have hle := hnode.height_le_length
      have hfew := length_tokens_le text
      rw [htokens] at hfew
      omega

/-- whatever is let in is short enough -/
theorem neverTall_of_refusal?_eq {arg : Argument String} (h : arg.refusal? = none) (htext : text ∈ arg.parts) :
    NeverTall text := by
  apply neverTall_of_size_le
  by_contra hlong
  have hlt : 1024 < text.utf8ByteSize := Nat.lt_of_not_le hlong
  unfold Argument.refusal? at h
  split_ifs at h with hmany hpremise hconclusion
  rcases List.mem_append.1 htext with hmem | hmem
  · exact hpremise (Argument.any_isLong_iff.2 ⟨text, hmem, hlt⟩)
  · exact hconclusion (Argument.conclusion_isLong_iff.2 ⟨text, Option.mem_toList.1 hmem, hlt⟩)

end Texts

end Counted

/-- **The books of the parser are kept.** Whatever comes, and however much is open: when a call of a level succeeds, as much
is open as before, tokens are gone, and the height it returns is that of the formula and at most 1024 and the number of these
tokens; behind joined operands no connective of their level or a tighter one comes next. Counting what is open comes to what
the parser comes to with the rest of its room, at every level and on whole texts. So the height of a node is never why a text
of at most 1024 bytes is refused, nor one of an argument that is let in: if it is too deep, too much was open. -/
theorem Formula.parse_keeps_books :
    (∀ fault level start sub stand, Counted.call fault level start = .ok (sub, stand) →
      Counted.Books level start sub stand) ∧
    (∀ fault level tokens depth, (level = .primary → ∀ t ∈ tokens.head?, t.kind ≠ .not) →
      Counted.Tallies tokens.length (Counted.Back depth tokens.length) (Counted.call fault level ⟨tokens, depth⟩)
        (reader fault (maxNesting - depth) level tokens)) ∧
    (∀ text, Counted.Tallies (lex text).tokens.length Eq (Counted.parse text) (parse text)) ∧
    (∀ text : String, text.utf8ByteSize ≤ 1024 → Counted.NeverTall text) ∧
    ∀ arg : Argument String, arg.refusal? = none → ∀ text ∈ arg.parts, Counted.NeverTall text := by
  refine ⟨?_, Counted.tallies_call, Counted.tallies_parse, ?_, ?_⟩
  · intro fault level start sub stand h
    exact Counted.books_of_call h
  · intro text h
    exact Counted.neverTall_of_size_le h
  · intro arg h text htext
    exact Counted.neverTall_of_refusal?_eq h htext

/-- a variable behind 129 negations -/
def Formula.overNegated : String := String.ofList (List.replicate 129 '!' ++ ['P'])

/-- with five open a negation is read and five are open again; the text of 130 bytes is refused at its last negation, because
too much is open -/
theorem Formula.parse_keeps_books_negations :
    Counted.Books .negation ⟨[⟨.not, "!", 7⟩, ⟨.ident, "P", 8⟩, ⟨.closing, ")", 9⟩], 5⟩ ⟨.not (.var "P"), 2⟩
      ⟨[⟨.closing, ")", 9⟩], 5⟩ ∧
    parse overNegated = .error (.tooDeep 128) ∧ Counted.parse overNegated = .error (.deep 128) := by
  have hparse : parse overNegated = .error (.tooDeep 128) := by decide +kernel
  have hsize : overNegated.utf8ByteSize ≤ 1024 := by decide +kernel
  have hnever : Counted.NeverTall overNegated := parse_keeps_books.2.2.2.1 overNegated hsize
  exact ⟨parse_keeps_books.1 none .negation _ _ _ (by decide), hparse, hnever.deep 128 hparse⟩

end Sequitur
