/-
The parser accepts exactly the grammar.

Soundness is what a reading is (`sound_formula`). Completeness runs over derivations. A left-recursive derivation of a chain
`a op b op c` has `a op b` inside it, and a reader that has come that far is in the middle of its loop: so the induction
does not say that the reader stops there, but that it comes to whatever it comes to from there (`GoesOn`), with any tokens
behind it that end the operands of the level. Where the level itself ends as well, reading is over.

- `reader_of_derives`: a derivation is read off the front of any tokens, and what is behind it decides how reading goes on;
- `Formula.parse_eq_ok_iff`: a text spells a formula exactly if all of it is tokens, they derive the formula without
  nesting too deep, and the formula is not too tall.
-/
import Sequitur.Proofs.Reading

namespace Sequitur

namespace Grammar

open Sequitur.Parser

/-- the reader of a level -/
def reader (fault : Option UnknownChar) (room : Nat) : Level → Reader
  | .joined .equiv => formula fault room
  | .joined .impl => chain fault .impl (chain fault .or (chain fault .and (unary fault room)))
  | .joined .or => chain fault .or (chain fault .and (unary fault room))
  | .joined .and => chain fault .and (unary fault room)
  | .negation => unary fault room
  | .primary => unary fault room

/-- with `left` read and `rest` to come, the reader of a level ends with `sub` and `rest'` -/
def GoesOn (fault : Option UnknownChar) (room : Nat) (left : Sub) (rest : List Token) (sub : Sub) (rest' : List Token) :
    Level → Prop
  | .joined op => Loop fault op (reader fault room (operand op)) left rest sub rest'
  | .negation => sub = left ∧ rest = rest'
  | .primary => sub = left ∧ rest = rest'

/-- the level that has to end before a level can go on -/
def Level.inner : Level → Level
  | .joined op => operand op
  | .negation => .negation
  | .primary => .primary

/-- a formula with its height -/
def measured (f : Formula) : Sub := ⟨f, f.height⟩

variable {fault : Option UnknownChar} {level : Level} {op : Connective} {room : Nat} {rest rest' : List Token}
  {sub left : Sub}

theorem reader_joined (fault : Option UnknownChar) (room : Nat) (op : Connective) :
    reader fault room (.joined op) = chain fault op (reader fault room (operand op)) := by
  cases op <;> rfl

/-- the operands of a chain are read soundly -/
theorem sound_reader (fault : Option UnknownChar) (room : Nat) (op : Connective) :
    Sound (operand op) room (reader fault room (operand op)) := by
  refine operand_induction (motive := fun level => Sound level room (reader fault room level)) (sound_unary fault room) ?_ op
  intro op hoperand
  rw [reader_joined]
  exact sound_chain hoperand

/-! ## How reading goes on -/

theorem looseness_inner_le (level : Level) : level.inner.looseness ≤ level.looseness := by
  cases level with
  | joined op => exact Nat.le_of_succ_le (Nat.le_of_eq (looseness_operand op))
  | negation => exact Nat.le_refl _
  | primary => exact Nat.le_refl _

theorem Ends.inner (h : Ends level rest) : Ends level.inner rest := h.of_le (looseness_inner_le level)

/-- where the level ends, reading is over -/
theorem goesOn_of_ends (h : Ends level rest) : GoesOn fault room left rest left rest level := by
  cases level with
  | negation => exact ⟨rfl, rfl⟩
  | primary => exact ⟨rfl, rfl⟩
  | joined op =>
    apply Loop.stop
    intro t ht hop
    exact Nat.lt_irrefl _ (h t ht op hop)

theorem join_measured {f g : Formula} {position : Nat} (h : (Formula.bin op f g).height ≤ maxHeight) :
    (measured f).join op (measured g) position = .ok (measured (.bin op f g)) :=
  if_pos h

theorem negate_measured {f : Formula} {position : Nat} (h : f.not.height ≤ maxHeight) :
    (measured f).negate position = .ok (measured f.not) :=
  if_pos h

/-- a derivation can follow a connective -/
theorem Derives.operandAfter {used : List Token} {f : Formula} {n : Nat} (h : Derives level used f n) (t : Token) :
    operandAfter fault t (used ++ rest) = .ok () := by
  obtain ⟨u, tail, rfl, hu⟩ := h.starts
  exact if_pos hu

/-! ## From a derivation to its reading -/

/-- what a derivation derives is read off the front of any tokens that it can stand before -/
theorem reader_of_derives {used : List Token} {f : Formula} {n : Nat} (h : Derives level used f n) (hn : n ≤ room)
    (hf : f.height ≤ maxHeight) (he : Ends level.inner rest) (hgo : GoesOn fault room (measured f) rest sub rest' level) :
    reader fault room level (used ++ rest) = .ok (sub, rest') := by
  induction h generalizing room rest rest' sub with
  | @single op used f n h ih =>
    have hend : Ends (operand op) rest := he
    have hread : reader fault room (operand op) (used ++ rest) = .ok (measured f, rest) :=
      ih hn hf hend.inner (goesOn_of_ends hend)
    rw [reader_joined]
    exact chain_of_loop (sound_reader fault room op).consumes hread hgo
  | @fold op used used' t f g n m hl ht hr ihl ihr =>
    have hheights : f.height ≤ maxHeight ∧ g.height ≤ maxHeight := by
      simp only [Formula.height] at hf
      omega
    have hend : Ends (operand op) rest := he
    have hread : reader fault room (operand op) (used' ++ rest) = .ok (measured g, rest) :=
      ihr (by omega) hheights.2 hend.inner (goesOn_of_ends hend)
    -- the left part stands before its connective, which ends its operands but not the chain
    have hop : Ends (operand op) (t :: (used' ++ rest)) := by
      rw [ends_cons]
      intro op' hop'
      rw [ht] at hop'
      cases hop'
      exact Nat.le_of_eq (looseness_operand op)
    rw [List.append_assoc, List.cons_append]
    exact ihl (by omega) hheights.1 hop (.turn ht (hr.operandAfter t) hread (join_measured hf) hgo)
  | plain _ ih => exact ih hn hf (ends_of_looseness_eq_zero rfl) hgo
  | @negate t used f n ht h ih =>
    obtain ⟨less, rfl⟩ : ∃ less, room = less + 1 := ⟨room - 1, by omega⟩
    obtain ⟨rfl, rfl⟩ := hgo
    have hheight : f.height ≤ maxHeight := Nat.le_of_succ_le hf
    have hread : unary fault less (used ++ rest) = .ok (measured f, rest) :=
      ih (by omega) hheight (ends_of_looseness_eq_zero rfl) ⟨rfl, rfl⟩
    show unaryOf fault (some (unary fault less)) (t :: (used ++ rest)) = .ok (measured f.not, rest)
    simp only [unaryOf, ht, h.operandAfter t, bind, Except.bind, deeper, hread, negate_measured hf]
    rfl
  | @var t ht =>
    obtain ⟨rfl, rfl⟩ := hgo
    show unary fault room (t :: rest) = _
    cases room <;> simp only [unary, unaryOf, ht] <;> rfl
  | @group opened closed used f n ho h hc ih =>
    obtain ⟨less, rfl⟩ : ∃ less, room = less + 1 := ⟨room - 1, by omega⟩
    obtain ⟨rfl, rfl⟩ := hgo
    have hend : Ends biconditional (closed :: rest) := by
      rw [ends_cons]
      intro op hop
      rw [hc] at hop
      cases hop
    have hread : formulaOf fault (unary fault less) (used ++ closed :: rest) = .ok (measured f, closed :: rest) :=
      ih (by omega) hf hend.inner (goesOn_of_ends hend)
    have hne : ¬ (used ++ closed :: rest = [] ∧ fault = none) := by simp
    rw [List.cons_append, List.append_assoc, List.singleton_append]
    show unaryOf fault (some (unary fault less)) (opened :: (used ++ closed :: rest)) = .ok (measured f, rest)
    simp only [unaryOf, ho, if_neg hne, Option.map_some, deeper, hread, bind, Except.bind, close, if_pos hc]

/-! ## Whole texts -/

theorem finish_ok {f g : Formula} (h : finish fault f rest = .ok g) : rest = [] ∧ fault = none ∧ f = g := by
  cases rest with
  | nil =>
    cases fault with
    | none =>
      cases h
      exact ⟨rfl, rfl, rfl⟩
    | some u => cases h
  | cons t rest =>
    simp only [finish] at h
    split at h <;> cases h

/-- tokens are accepted exactly if no unknown character ended them and they derive the formula within the two limits -/
theorem whole_eq_ok_iff {l : Lexed} {f : Formula} : whole l = .ok f ↔
    l.fault = none ∧ ∃ n, Derives biconditional l.tokens f n ∧ n ≤ maxNesting ∧ f.height ≤ maxHeight := by
  obtain ⟨tokens, fault⟩ := l
  constructor
  · intro h
    obtain ⟨⟨sub, rest⟩, hread, hfin⟩ := ok_of_bind h
    obtain ⟨rfl, hfault, rfl⟩ := finish_ok hfin
    obtain ⟨hr, _⟩ := sound_formula fault maxNesting tokens sub [] hread
    obtain ⟨used, n, hu, hd, hn⟩ := hr.derived
    rw [List.append_nil] at hu
    subst hu
    exact ⟨hfault, n, hd, hn, hr.height_eq ▸ hr.height_le⟩
  · rintro ⟨hfault, n, hd, hn, hf⟩
    have hread : formula fault maxNesting (tokens ++ []) = .ok (measured f, []) :=
      reader_of_derives hd hn hf (ends_nil _) (goesOn_of_ends (ends_nil _))
    rw [List.append_nil] at hread
    rw [whole, hread, hfault]
    rfl

end Grammar

/-- **The parser accepts exactly the grammar.** A text spells a formula if and only if it is tokens throughout, all of
which together derive the formula by a derivation that nests at most 128 deep, and the formula is at most 1024 tall. -/
theorem Formula.parse_eq_ok_iff (text : String) (f : Formula) : Formula.parse text = .ok f ↔
    ∃ tokens n, tokenize text = .ok tokens ∧ Grammar.Derives Grammar.biconditional tokens f n ∧ n ≤ 128 ∧
      f.height ≤ 1024 := by
  rw [Formula.parse, Grammar.whole_eq_ok_iff]
  constructor
  · rintro ⟨hfault, n, hd, hn, hf⟩
    refine ⟨(lex text).tokens, n, ?_, hd, hn, hf⟩
    rw [tokenize_eq_ok_iff, ← hfault]
  · rintro ⟨tokens, n, ht, hd, hn, hf⟩
    rw [tokenize_eq_ok_iff] at ht
    rw [ht]
    exact ⟨rfl, n, hd, hn, hf⟩

/-- binary connectives fold to the left, and the tighter one binds first -/
example : Formula.parse "a -> b -> c & d" =
    .ok (.bin .impl (.bin .impl (.var "a") (.var "b")) (.bin .and (.var "c") (.var "d"))) := rfl

end Sequitur
