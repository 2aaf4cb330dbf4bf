/-
What a reader has read when it succeeds.

A reading of a level takes tokens off the front that derive the formula it returns, without nesting deeper than there was
room for; the height it carries is the height of the formula, and never above `maxHeight`. Behind it the level ends: the
loop of a chain stops only where its connective cannot go on, and no tighter connective is left either.

- `sound_loop`, `sound_chain`: one chain, whatever reads its operands;
- `sound_unary`, `sound_formula`: the readers of the parser, by induction on the room that is left.
-/
import Sequitur.Proofs.Grammar
import Sequitur.Proofs.Steps

namespace Sequitur.Grammar

open Sequitur.Parser

/-- `sub` was read off the front of `tokens` and `rest` is left -/
structure Reading (level : Level) (room : Nat) (tokens : List Token) (sub : Sub) (rest : List Token) : Prop where
  derived : ∃ used n, tokens = used ++ rest ∧ Derives level used sub.formula n ∧ n ≤ room
  height_eq : sub.height = sub.formula.height
  height_le : sub.height ≤ maxHeight

/-- a reader that returns readings of its level only, and goes on to where the level ends -/
def Sound (level : Level) (room : Nat) (read : Reader) : Prop :=
  ∀ tokens sub rest, read tokens = .ok (sub, rest) → Reading level room tokens sub rest ∧ Ends level rest

variable {fault : Option UnknownChar} {level : Level} {op : Connective} {room : Nat} {read : Reader}
  {tokens rest rest' : List Token} {sub left right : Sub}

/-- a reading takes at least one token -/
theorem Reading.length_lt (h : Reading level room tokens sub rest) : rest.length < tokens.length := by
  obtain ⟨used, n, rfl, hd, _⟩ := h.derived
  obtain ⟨t, tail, rfl, _⟩ := hd.starts
  simp only [List.cons_append, List.length_cons, List.length_append]
  omega

theorem Sound.consumes (h : Sound level room read) : Consumes read :=
  fun tokens sub rest hread => (h tokens sub rest hread).1.length_lt

/-! ## Chains -/

/-- a single operand is a chain -/
theorem Reading.single (h : Reading (operand op) room tokens sub rest) : Reading (.joined op) room tokens sub rest := by
  obtain ⟨used, n, hu, hd, hn⟩ := h.derived
  exact ⟨⟨used, n, hu, .single hd, hn⟩, h.height_eq, h.height_le⟩

/-- a chain, its connective and one more operand make a longer chain -/
theorem Reading.join {t : Token} {position : Nat} (ht : t.kind = .connective op)
    (hl : Reading (.joined op) room tokens left (t :: rest)) (hr : Reading (operand op) room rest right rest')
    (hj : left.join op right position = .ok sub) : Reading (.joined op) room tokens sub rest' := by
  obtain ⟨used, n, rfl, hd, hn⟩ := hl.derived
  obtain ⟨used', m, rfl, hd', hm⟩ := hr.derived
  obtain ⟨rfl, hle⟩ := bounded_ok hj
  refine ⟨⟨used ++ t :: used', max n m, ?_, .fold hd ht hd', by omega⟩, ?_, hle⟩
  · rw [List.append_assoc, List.cons_append]
  · simp only [Formula.height, hl.height_eq, hr.height_eq]

/-- the loop goes on to the end of its level -/
theorem sound_loop (h : Sound (operand op) room read) (hloop : Loop fault op read left rest sub rest')
    (hl : Reading (.joined op) room tokens left rest) (he : Ends (operand op) rest) :
    Reading (.joined op) room tokens sub rest' ∧ Ends (.joined op) rest' := by
  induction hloop with
  | stop hstop => exact ⟨hl, he.joined hstop⟩
  | turn ht _ hread hj _ ih =>
    obtain ⟨hr, he'⟩ := h _ _ _ hread
    exact ih (hl.join ht hr hj) he'

theorem sound_chain (h : Sound (operand op) room read) : Sound (.joined op) room (chain fault op read) := by
  intro tokens sub rest' hc
  obtain ⟨first, rest, hread, hloop⟩ := chain_ok h.consumes hc
  obtain ⟨hf, he⟩ := h _ _ _ hread
  exact sound_loop h hloop hf.single he

theorem sound_formulaOf (h : Sound .negation room read) : Sound biconditional room (formulaOf fault read) :=
  sound_chain (sound_chain (sound_chain (sound_chain h)))

/-! ## Operands -/

theorem Reading.var {t : Token} (ht : t.kind = .ident) : Reading .negation room (t :: rest) (.var t.spelling) rest := by
  have hle : 1 ≤ maxHeight := by decide
  exact ⟨⟨[t], 0, rfl, .plain (.var ht), Nat.zero_le _⟩, rfl, hle⟩

theorem Reading.negate {t : Token} {position : Nat} (ht : t.kind = .not) (h : Reading .negation room tokens left rest)
    (hn : left.negate position = .ok sub) : Reading .negation (room + 1) (t :: tokens) sub rest := by
  obtain ⟨used, n, rfl, hd, hle⟩ := h.derived
  obtain ⟨rfl, hh⟩ := bounded_ok hn
  refine ⟨⟨t :: used, n + 1, rfl, .negate ht hd, by omega⟩, ?_, hh⟩
  simp only [Formula.height, h.height_eq]

theorem Reading.group {opened closed : Token} (ho : opened.kind = .opening) (hc : closed.kind = .closing)
    (h : Reading biconditional room tokens sub (closed :: rest)) :
    Reading .negation (room + 1) (opened :: tokens) sub rest := by
  obtain ⟨used, n, rfl, hd, hle⟩ := h.derived
  refine ⟨⟨opened :: (used ++ [closed]), n + 1, ?_, .plain (.group ho hd hc), by omega⟩, h.height_eq, h.height_le⟩
  simp

/-- an operand is read soundly if what stands inside it is, with one level less of room -/
theorem sound_unaryOf {inner : Option Reader}
    (h : ∀ read, inner = some read → ∃ less, room = less + 1 ∧ Sound .negation less read) :
    Sound .negation room (unaryOf fault inner) := by
  intro tokens sub rest hu
  refine ⟨?_, ends_of_looseness_eq_zero rfl⟩
  cases operand_of_ok hu with
  | var ht => exact .var ht
  | negation ht _ hi hread hn =>
    obtain ⟨less, rfl, hs⟩ := h _ hi
    exact (hs _ _ _ hread).1.negate ht hn
  | group ho hi hread hc =>
    obtain ⟨less, rfl, hs⟩ := h _ hi
    exact (sound_formulaOf hs _ _ _ hread).1.group ho hc

theorem sound_unary (fault : Option UnknownChar) (room : Nat) : Sound .negation room (unary fault room) := by
  apply unary_induction
  intro room inner hinner
  apply sound_unaryOf
  intro read hi
  obtain ⟨less, hroom, _, hs⟩ := hinner read hi
  exact ⟨less, hroom, hs⟩

theorem sound_formula (fault : Option UnknownChar) (room : Nat) : Sound biconditional room (formula fault room) :=
  sound_formulaOf (sound_unary fault room)

end Sequitur.Grammar
