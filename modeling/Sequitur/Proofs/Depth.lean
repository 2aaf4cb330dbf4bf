/-
Where a text is too deep.

Two limits share one error. The room for enclosing negations and groups is counted down on the way into an operand; the
height of a node is looked at on the way out, when its operands are there. What the error says about the text mentions
neither the readers nor their counting:

- `enclosing` scans tokens from left to right and keeps the open parentheses and the negations that still wait for their
  operand. What derives at any level leaves this stack as it was, but for negations that wait no longer
  (`Derives.foldl_enclose`), so the room of a reader is 128 less what encloses the place where it stands (`StandsAt`);
- `Node` says which node a negation or a connective builds: its operands are derived from the tokens next to it, as far as
  they reach. `Begins` says that of the left operand of a connective, as `Ends` does of the right one.

`Locates` ties a reader to the two. A loop carries along that what it has read so far is one chain, and every chain and
operand passes the place on to the readers inside it. `Formula.tooDeep_located` has the other direction as well: 129
parentheses and negations in a row settle the matter, whatever follows them.
-/
import Mathlib.Data.List.DropRight
import Sequitur.Proofs.Canonical

namespace Sequitur

/-- open parentheses and negations enclose what follows them -/
def Token.Encloses (t : Token) : Prop := t.kind = .opening ∨ t.kind = .not

/-! ## What encloses a place -/

/-- an operand is complete, and so are the negations that waited for it -/
def settle (outer : List Token) : List Token := outer.dropWhile fun t => decide (t.kind = .not)

/-- takes one token; the innermost comes first -/
def enclose (outer : List Token) (t : Token) : List Token :=
  match t.kind with
  | .opening | .not => t :: outer
  | .ident => settle outer
  | .closing => settle (settle outer).tail
  | .connective _ => outer

/-- the open parentheses and pending negations behind these tokens -/
def enclosing (tokens : List Token) : List Token := tokens.foldl enclose []

/-! ## The limits -/

/-- what a negation or a connective joins -/
def Formula.operands : Formula → List Formula
  | var _ => []
  | not f => [f]
  | bin _ l r => [l, r]

namespace Grammar

/-- what comes before is nothing, an open parenthesis, or a connective that binds more loosely than this level -/
def Begins (level : Level) (before : List Token) : Prop :=
  ∀ t ∈ before.getLast?, t.kind = .opening ∨ ∃ op, t.kind = .connective op ∧ level.looseness < looseness op

/-- the node that a token builds from the tokens before and after it -/
inductive Node : List Token → Token → List Token → Formula → Prop where
  | negation {before used rest : List Token} {t : Token} {f : Formula} {n : Nat} :
      t.kind = .not → Derives .negation used f n → Node before t (used ++ rest) (.not f)
  | joined {outer left right rest : List Token} {t : Token} {op : Connective} {f g : Formula} {n m : Nat} :
      Begins (.joined op) outer → Derives (.joined op) left f n → t.kind = .connective op →
        Derives (operand op) right g m → Ends (operand op) rest →
          Node (outer ++ left) t (right ++ rest) (.bin op f g)

/-- a token, with what stands before and after it, goes beyond a limit that all within it keeps -/
inductive Exceeds (before : List Token) (t : Token) (after : List Token) : Prop where
  | nesting : t.Encloses → (enclosing before).length = 128 → Exceeds before t after
  | height {f : Formula} :
      Node before t after f → f.height = 1025 → (∀ g ∈ f.operands, g.height ≤ 1024) → Exceeds before t after

/-- at this position stands a token that goes beyond a limit -/
def ExceedsAt (tokens : List Token) (p : Nat) : Prop :=
  ∃ before t after, tokens = before ++ t :: after ∧ t.position = p ∧ Exceeds before t after

/-! ## The stack along a derivation -/

section Stack

variable {outer : List Token} {t : Token}

theorem settle_settle (outer : List Token) : settle (settle outer) = settle outer := List.dropWhile_idempotent _ _

theorem settle_of_not (ht : t.kind = .not) : settle (t :: outer) = settle outer := by
  simp [settle, ht]

theorem settle_of_opening (ht : t.kind = .opening) : settle (t :: outer) = t :: outer := by
  simp [settle, ht]

theorem enclose_of_encloses (ht : t.Encloses) : enclose outer t = t :: outer := by
  rcases ht with ht | ht <;> simp only [enclose, ht]

theorem enclose_of_connective {op : Connective} (ht : t.kind = .connective op) : enclose outer t = outer := by
  simp only [enclose, ht]

/-- what is derived leaves only complete negations less -/
theorem Derives.foldl_enclose {level : Level} {used : List Token} {f : Formula} {n : Nat} (h : Derives level used f n)
    (outer : List Token) : used.foldl enclose outer = settle outer := by
  induction h generalizing outer with
  | single _ ih => exact ih outer
  | fold _ ht _ ihl ihr =>
    rw [List.foldl_append, List.foldl_cons, ihl, enclose_of_connective ht, ihr, settle_settle]
  | plain _ ih => exact ih outer
  | negate ht _ ih => rw [List.foldl_cons, enclose_of_encloses (Or.inr ht), ih, settle_of_not ht]
  | var ht => simp only [List.foldl_cons, List.foldl_nil, enclose, ht]
  | group ho _ hc ih =>
    rw [List.foldl_cons, List.foldl_append, enclose_of_encloses (Or.inl ho), ih, settle_of_opening ho]
    simp only [List.foldl_cons, List.foldl_nil, enclose, hc, settle_of_opening ho, List.tail_cons]

theorem enclosing_append (before used : List Token) : enclosing (before ++ used) = used.foldl enclose (enclosing before) :=
  List.foldl_append

theorem enclosing_encloses (before : List Token) (ht : t.Encloses) : enclosing (before ++ [t]) = t :: enclosing before := by
  rw [enclosing_append, List.foldl_cons, List.foldl_nil, enclose_of_encloses ht]

end Stack

/-! ## Where a reader stands -/

/-- a reader of the level, with so much room left, is at work behind these tokens; before joined operands no negation waits
and no connective that would take the first of them -/
structure StandsAt (level : Level) (room : Nat) (before : List Token) : Prop where
  nested : (enclosing before).length + room = maxNesting
  begins : ∀ op, level = .joined op → Begins level before
  settled : ∀ op, level = .joined op → settle (enclosing before) = enclosing before

section Places

variable {level : Level} {op : Connective} {room : Nat} {before used : List Token} {t : Token} {f : Formula} {n : Nat}

theorem standsAt_start : StandsAt biconditional maxNesting [] := by
  refine ⟨rfl, fun _ _ t ht => ?_, fun _ _ => rfl⟩
  cases ht

theorem Begins.operand (h : Begins (.joined op) before) : Begins (operand op) before := by
  intro t ht
  rcases h t ht with ho | ⟨op', hop', hlt⟩
  · exact Or.inl ho
  · have hle : (Grammar.operand op).looseness ≤ (Level.joined op).looseness := Nat.le_of_succ_le (looseness_operand op).le
    exact Or.inr ⟨op', hop', Nat.lt_of_le_of_lt hle hlt⟩

/-- the first operand of a chain stands where the chain does -/
theorem StandsAt.first (h : StandsAt (.joined op) room before) : StandsAt (operand op) room before :=
  ⟨h.nested, fun _ _ => (h.begins op rfl).operand, fun _ _ => h.settled op rfl⟩

/-- and every other one behind the part of the chain before it -/
theorem StandsAt.next (h : StandsAt (.joined op) room before) (hd : Derives (.joined op) used f n)
    (ht : t.kind = .connective op) : StandsAt (operand op) room (before ++ (used ++ [t])) := by
  have hsame : enclosing (before ++ (used ++ [t])) = enclosing before := by
    rw [enclosing_append, List.foldl_append, hd.foldl_enclose, h.settled op rfl, List.foldl_cons, List.foldl_nil,
      enclose_of_connective ht]
  refine ⟨by rw [hsame, h.nested], fun _ _ => ?_, fun _ _ => by rw [hsame, h.settled op rfl]⟩
  intro t' ht'
  rw [← List.append_assoc, List.getLast?_concat] at ht'
  cases ht'
  exact Or.inr ⟨op, ht, (looseness_operand op).le⟩

/-- behind a negation there is one level less of room -/
theorem StandsAt.negated (h : StandsAt level (room + 1) before) (ht : t.kind = .not) :
    StandsAt .negation room (before ++ [t]) := by
  refine ⟨?_, nofun, nofun⟩
  rw [enclosing_encloses before (Or.inr ht), List.length_cons, ← h.nested]
  omega

/-- and so there is inside a group, where a whole formula can stand -/
theorem StandsAt.grouped (h : StandsAt level (room + 1) before) (ht : t.kind = .opening) :
    StandsAt biconditional room (before ++ [t]) := by
  refine ⟨?_, fun _ _ => ?_, fun _ _ => ?_⟩
  · rw [enclosing_encloses before (Or.inl ht), List.length_cons, ← h.nested]
    omega
  · intro t' ht'
    rw [List.getLast?_concat] at ht'
    cases ht'
    exact Or.inl ht
  · rw [enclosing_encloses before (Or.inl ht), settle_of_opening ht]

end Places

/-! ## Errors that are not for depth -/

section Others

open Sequitur.Parser

variable {fault : Option UnknownChar} {tokens rest : List Token} {t : Token} {e : SyntaxError} {p : Nat}

theorem atEnd_ne_tooDeep (he : e ≠ .tooDeep p) : atEnd fault e ≠ .tooDeep p := by
  cases fault with
  | none => exact he
  | some u => nofun

theorem operandAfter_ne_tooDeep : operandAfter fault t rest ≠ .error (.tooDeep p) := by
  intro h
  rcases operandAfter_error h with ⟨-, he⟩ | ⟨u, tail, -, -, he⟩
  · exact absurd he.symm (atEnd_ne_tooDeep nofun)
  · cases he

theorem close_ne_tooDeep {opened : Nat} {sub : Sub} : close fault opened sub rest ≠ .error (.tooDeep p) := by
  intro h
  rcases close_error h with ⟨-, he⟩ | ⟨u, tail, -, -, he⟩
  · exact absurd he.symm (atEnd_ne_tooDeep nofun)
  · cases he

theorem finish_ne_tooDeep {f : Formula} : finish fault f rest ≠ .error (.tooDeep p) := by
  intro h
  cases rest with
  | nil => cases fault <;> cases h
  | cons t rest =>
    simp only [finish] at h
    split at h <;> cases h

end Others

/-! ## Readers give up where a limit is exceeded -/

section Readers

open Sequitur.Parser

variable {fault : Option UnknownChar} {level : Level} {op : Connective} {room : Nat} {read : Reader}
  {before tokens rest : List Token} {left : Sub} {t : Token} {p : Nat}

/-- a reader that gives up for depth only at a token that exceeds a limit, in view of all that stands before it -/
def Locates (level : Level) (room : Nat) (read : Reader) : Prop :=
  ∀ before tokens p, StandsAt level room before → read tokens = .error (.tooDeep p) → ExceedsAt (before ++ tokens) p

/-- a node is refused when it is one taller than the limit, since its operands were not -/
theorem exceeds_of_join {right : Sub} {rest' : List Token} (hat : StandsAt (.joined op) room before)
    (hl : Reading (.joined op) room tokens left (t :: rest)) (ht : t.kind = .connective op)
    (hr : Reading (operand op) room rest right rest') (he : Ends (operand op) rest')
    (hj : left.join op right t.position = .error (.tooDeep p)) : ExceedsAt (before ++ tokens) p := by
  obtain ⟨used, n, rfl, hd, -⟩ := hl.derived
  obtain ⟨used', m, rfl, hd', -⟩ := hr.derived
  obtain ⟨hp, hlt⟩ := bounded_error hj
  cases hp
  have hleft : left.formula.height ≤ 1024 := hl.height_eq ▸ hl.height_le
  have hright : right.formula.height ≤ 1024 := hr.height_eq ▸ hr.height_le
  rw [hl.height_eq, hr.height_eq, maxHeight] at hlt
  have hnode : Node (before ++ used) t (used' ++ rest') (.bin op left.formula right.formula) :=
    .joined (hat.begins op rfl) hd ht hd' he
  refine ⟨before ++ used, t, used' ++ rest', (List.append_assoc ..).symm, rfl, .height hnode ?_ ?_⟩
  · simp only [Formula.height]
    omega
  · simp [Formula.operands, hleft, hright]

/-- the same for a negation -/
theorem exceeds_of_negate {sub : Sub} (ht : t.kind = .not) (h : Reading .negation room tokens sub rest)
    (hn : sub.negate t.position = .error (.tooDeep p)) : ExceedsAt (before ++ t :: tokens) p := by
  obtain ⟨used, n, rfl, hd, -⟩ := h.derived
  obtain ⟨hp, hlt⟩ := bounded_error hn
  cases hp
  have hheight : sub.formula.height ≤ 1024 := h.height_eq ▸ h.height_le
  rw [h.height_eq, maxHeight] at hlt
  refine ⟨before, t, used ++ rest, rfl, rfl, .height (.negation ht hd) ?_ ?_⟩
  · simp only [Formula.height]
    omega
  · simp [Formula.operands, hheight]

/-- along the loop, what has been read is one chain, and every further operand stands behind it -/
theorem exceeds_of_loopFails (hs : Sound (operand op) room read) (h : Locates (operand op) room read)
    (hat : StandsAt (.joined op) room before) {e : SyntaxError} (he : e = .tooDeep p)
    (hloop : LoopFails fault op read left rest e) (hl : Reading (.joined op) room tokens left rest) :
    ExceedsAt (before ++ tokens) p := by
  induction hloop with
  | lacking _ ha =>
    rw [he] at ha
    exact absurd ha operandAfter_ne_tooDeep
  | @operand left t rest e ht _ hread =>
    obtain ⟨used, n, rfl, hd, -⟩ := hl.derived
    have hinside := h _ rest p (hat.next hd ht) (he ▸ hread)
    simpa using hinside
  | tall ht _ hread hj =>
    obtain ⟨hr, hends⟩ := hs _ _ _ hread
    exact exceeds_of_join hat hl ht hr hends (he ▸ hj)
  | later ht _ hread hj _ ih => exact ih he (hl.join ht (hs _ _ _ hread).1 hj)

theorem locates_chain (hs : Sound (operand op) room read) (h : Locates (operand op) room read) :
    Locates (.joined op) room (chain fault op read) := by
  intro before tokens p hat hc
  rcases chain_error hc with hread | ⟨first, rest, hread, hloop⟩
  · exact h before tokens p hat.first hread
  · exact exceeds_of_loopFails hs h hat rfl hloop (hs _ _ _ hread).1.single

theorem locates_formula (h : Locates .negation room (unary fault room)) :
    Locates biconditional room (formula fault room) := by
  refine joined_induction (motive := fun level => Locates level room (reader fault room level)) h ?_ .equiv
  intro op hoperand
  rw [reader_joined]
  exact locates_chain (sound_reader fault room op) hoperand

/-- an operand passes its place on to what stands inside it; without room it is itself what exceeds the limit -/
theorem locates_unaryOf {inner : Option Reader} (hnone : inner = none → room = 0)
    (h : ∀ read, inner = some read → ∃ less, room = less + 1 ∧ read = unary fault less ∧
      Locates .negation less (unary fault less)) :
    Locates .negation room (unaryOf fault inner) := by
  intro before tokens p hat hu
  obtain ⟨e, he⟩ : ∃ e, e = SyntaxError.tooDeep p := ⟨_, rfl⟩
  rw [← he] at hu
  cases operandFails_of_error hu with
  | nothing => exact absurd he (atEnd_ne_tooDeep nofun)
  | connective _ => cases he
  | closing _ => cases he
  | lacking _ ha =>
    rw [he] at ha
    exact absurd ha operandAfter_ne_tooDeep
  | unclosed _ _ => cases he
  | @noRoom t tail hkind hi =>
    cases he
    have hfull : (enclosing before).length = 128 := by
      have hnested := hat.nested
      rw [hnone hi] at hnested
      exact hnested
    exact ⟨before, t, tail, rfl, rfl, .nesting (hkind.symm.imp And.left And.left) hfull⟩
  | @negated t tail read e ht _ hi hread =>
    obtain ⟨less, rfl, rfl, hless⟩ := h read hi
    have hinside := hless _ tail p (hat.negated ht) (he ▸ hread)
    simpa using hinside
  | @tall t tail rest read sub e ht _ hi hread hn =>
    obtain ⟨less, rfl, rfl, -⟩ := h read hi
    exact exceeds_of_negate ht (sound_unary fault less _ _ _ hread).1 (he ▸ hn)
  | @grouped t tail read e ht _ hi hread =>
    obtain ⟨less, rfl, rfl, hless⟩ := h read hi
    have hinside := locates_formula hless _ tail p (hat.grouped ht) (he ▸ hread)
    simpa using hinside
  | unended _ _ _ _ hc =>
    rw [he] at hc
    exact absurd hc close_ne_tooDeep

theorem locates_unary (fault : Option UnknownChar) (room : Nat) : Locates .negation room (unary fault room) := by
  induction room with
  | zero => exact locates_unaryOf (fun _ => rfl) nofun
  | succ room ih =>
    refine locates_unaryOf nofun fun read hread => ?_
    cases hread
    exact ⟨room, rfl, rfl, ih⟩

theorem exceedsAt_of_whole {l : Lexed} (h : whole l = .error (.tooDeep p)) : ExceedsAt l.tokens p := by
  rcases error_of_bind h with hread | ⟨⟨sub, rest⟩, -, hfinish⟩
  · exact locates_formula (locates_unary l.fault maxNesting) [] l.tokens p standsAt_start hread
  · exact absurd hfinish finish_ne_tooDeep

end Readers

/-! ## A run of parentheses and negations -/

section Run

open Sequitur.Parser

variable {fault : Option UnknownChar} {room : Nat} {t u : Token} {rest : List Token}

theorem startsOperand_of_encloses (ht : t.Encloses) : t.kind.startsOperand = true := by
  rcases ht with ht | ht <;> rw [ht] <;> rfl

/-- what encloses an operand leaves everything to the reader of its inside -/
theorem unaryOf_of_encloses {inner : Option Reader} {e : SyntaxError} (ht : t.Encloses) (hu : u.kind.startsOperand = true)
    (hnot : deeper inner t.position (u :: rest) = .error e)
    (hopening : deeper (inner.map (formulaOf fault)) t.position (u :: rest) = .error e) :
    unaryOf fault inner (t :: u :: rest) = .error e := by
  rcases ht with ht | ht
  · have hne : ¬ (u :: rest = [] ∧ fault = none) := by simp
    simp only [unaryOf, ht, if_neg hne, hopening, bind, Except.bind]
  · have hafter : operandAfter fault t (u :: rest) = .ok () := if_pos hu
    simp only [unaryOf, ht, hafter, hnot, bind, Except.bind]

/-- each token of the run takes one level of room, and the last finds none -/
theorem unary_run (front : List Token) (hrun : ∀ x ∈ front ++ [t], x.Encloses) (hu : u.kind.startsOperand = true) :
    unary fault front.length (front ++ t :: u :: rest) = .error (.tooDeep t.position) := by
  induction front with
  | nil =>
    have ht : t.Encloses := hrun t (List.mem_singleton.2 rfl)
    exact unaryOf_of_encloses ht hu rfl rfl
  | cons x front ih =>
    have hinner := ih fun y hy => hrun y (List.mem_cons_of_mem _ hy)
    have hx : x.Encloses := hrun x List.mem_cons_self
    -- the next token of the run is one that an operand can begin with
    obtain ⟨y, tail, hy, hstarts⟩ : ∃ y tail, front ++ t :: u :: rest = y :: tail ∧ y.kind.startsOperand = true := by
      cases front with
      | nil => exact ⟨t, u :: rest, rfl, startsOperand_of_encloses (hrun t (by simp))⟩
      | cons y front => exact ⟨y, _, rfl, startsOperand_of_encloses (hrun y (by simp))⟩
    rw [List.cons_append, hy]
    rw [hy] at hinner
    exact unaryOf_of_encloses hx hstarts hinner (reader_of_unary_error hinner biconditional)

theorem whole_of_run {l : Lexed} {front : List Token} (htokens : l.tokens = front ++ t :: u :: rest)
    (hlength : front.length = maxNesting) (hrun : ∀ x ∈ front ++ [t], x.Encloses) (hu : u.kind.startsOperand = true) :
    whole l = .error (.tooDeep t.position) := by
  have hunary : unary l.fault maxNesting l.tokens = .error (.tooDeep t.position) := by
    rw [htokens, ← hlength]
    exact unary_run front hrun hu
  have hformula : formula l.fault maxNesting l.tokens = .error (.tooDeep t.position) :=
    reader_of_unary_error hunary biconditional
  rw [whole, hformula]
  rfl

end Run

end Grammar

/-- **Depth is reported where it is exceeded, and at once.** If a text is refused as too deep, the position is that of a
parenthesis or negation that exactly 128 open parentheses and pending negations enclose, or that of a negation or
connective whose node would be 1025 tall from operands of at most 1024. And if its tokens begin with 129 parentheses and
negations before one that an operand can begin with, it is refused at the last of them, whatever comes behind, be it
malformed or no token at all. -/
theorem Formula.tooDeep_located (text : String) :
    (∀ p, parse text = .error (.tooDeep p) → Grammar.ExceedsAt (lex text).tokens p) ∧
    ∀ front t u rest, (lex text).tokens = front ++ t :: u :: rest → front.length = 128 →
      (∀ x ∈ front ++ [t], x.Encloses) → u.kind.startsOperand = true → parse text = .error (.tooDeep t.position) := by
  constructor
  · intro p h
    exact Grammar.exceedsAt_of_whole h
  · intro front t u rest htokens hlength hrun hu
    exact Grammar.whole_of_run htokens hlength hrun hu

/-- 64 times a negation and a parenthesis, and one parenthesis more, before what is no formula and ends in no token -/
def Formula.crowded : String := String.ofList ((List.replicate 64 ['!', '(']).flatten ++ "(P -> ) #".toList)

/-- the last parenthesis is the first token with 128 others around it, and what is wrong behind it is never reached -/
theorem Formula.tooDeep_located_crowded :
    parse crowded = .error (.tooDeep 128) ∧ Grammar.ExceedsAt (lex crowded).tokens 128 := by
  have htokens : (lex crowded).tokens =
      ((List.range 64).flatMap fun i => [⟨.not, "!", 2 * i⟩, ⟨.opening, "(", 2 * i + 1⟩]) ++
        ⟨.opening, "(", 128⟩ :: ⟨.ident, "P", 129⟩ :: [⟨.connective .impl, "->", 131⟩, ⟨.closing, ")", 134⟩] := by
    decide +kernel
  have hrun : ∀ x ∈ ((List.range 64).flatMap fun i => [(⟨.not, "!", 2 * i⟩ : Token), ⟨.opening, "(", 2 * i + 1⟩]) ++
      [⟨.opening, "(", 128⟩], x.Encloses := by
    intro x hx
    simp only [List.mem_append, List.mem_flatMap, List.mem_cons, List.not_mem_nil, or_false] at hx
    rcases hx with ⟨i, -, rfl | rfl⟩ | rfl
    · exact Or.inr rfl
    · exact Or.inl rfl
    · exact Or.inl rfl
  have hparse : parse crowded = .error (.tooDeep 128) := (tooDeep_located crowded).2 _ _ _ _ htokens (by simp) hrun rfl
  exact ⟨hparse, (tooDeep_located crowded).1 128 hparse⟩

end Sequitur
