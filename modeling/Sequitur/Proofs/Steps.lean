/-
How the readers come to their results.

The readers of the parser are functions; what is proved about them mostly asks the other way round, from a result to the
way it came about. Each function is taken apart here once, and the relations say everything it can do, guards included:

- `Loop` and `LoopFails`: the loop of a chain, turn by turn. Nothing is left of the bound that the loop runs on, since a
  reader that takes at least one token each time (`Consumes`) cannot use it up;
- `Operand` and `OperandFails`: a variable, a negation or a group.

`loop_of_more_ok`, `loopFails_of_more_error`, `operand_of_ok` and `operandFails_of_error` lead from the functions to the
relations, `more_of_loop` and `more_of_loopFails` lead back. `unary_induction` is the induction on the room that is left.
-/
import Sequitur.Formula.Parser

namespace Sequitur.Parser

/-- two steps succeed only if the first does and the second does on its result -/
theorem ok_of_bind {α β : Type} {first : Except SyntaxError α} {second : α → Except SyntaxError β} {b : β}
    (h : first >>= second = .ok b) : ∃ a, first = .ok a ∧ second a = .ok b := by
  cases first with
  | error e => cases h
  | ok a => exact ⟨a, rfl, h⟩

/-- two steps fail if the first does, or the second on the result of the first -/
theorem error_of_bind {α β : Type} {first : Except SyntaxError α} {second : α → Except SyntaxError β} {e : SyntaxError}
    (h : first >>= second = .error e) : first = .error e ∨ ∃ a, first = .ok a ∧ second a = .error e := by
  cases first with
  | error e' =>
    cases h
    exact Or.inl rfl
  | ok a => exact Or.inr ⟨a, rfl, h⟩

variable {fault : Option UnknownChar} {op : Connective} {read : Reader} {tokens rest rest' : List Token}
  {sub sub' left : Sub} {t : Token} {e : SyntaxError}

/-- a reader that takes at least one token -/
def Consumes (read : Reader) : Prop :=
  ∀ tokens sub rest, read tokens = .ok (sub, rest) → rest.length < tokens.length

/-! ## Small steps -/

theorem bounded_ok {f : Formula} {height position : Nat} (h : Sub.bounded f height position = .ok sub) :
    sub = ⟨f, height⟩ ∧ height ≤ maxHeight := by
  unfold Sub.bounded at h
  split at h
  · rename_i hle
    cases h
    exact ⟨rfl, hle⟩
  · cases h

theorem bounded_error {f : Formula} {height position : Nat} (h : Sub.bounded f height position = .error e) :
    e = .tooDeep position ∧ maxHeight < height := by
  unfold Sub.bounded at h
  split at h
  · cases h
  · rename_i hle
    cases h
    exact ⟨rfl, Nat.lt_of_not_le hle⟩

/-- an operand can begin with what follows a connective that is let through -/
theorem operandAfter_ok (h : operandAfter fault t rest = .ok ()) :
    ∃ u tail, rest = u :: tail ∧ u.kind.startsOperand = true := by
  cases rest with
  | nil => cases h
  | cons u tail =>
    simp only [operandAfter] at h
    split at h
    · rename_i hu
      exact ⟨u, tail, rfl, hu⟩
    · cases h

theorem operandAfter_error (h : operandAfter fault t rest = .error e) :
    (rest = [] ∧ e = atEnd fault (.missingOperand t.spelling t.position)) ∨
      ∃ u tail, rest = u :: tail ∧ u.kind.startsOperand = false ∧ e = .missingOperand t.spelling t.position := by
  cases rest with
  | nil =>
    cases h
    exact Or.inl ⟨rfl, rfl⟩
  | cons u tail =>
    simp only [operandAfter] at h
    split at h
    · cases h
    · rename_i hu
      cases h
      exact Or.inr ⟨u, tail, rfl, Bool.not_eq_true _ ▸ hu, rfl⟩

theorem close_ok {opened : Nat} (h : close fault opened sub rest = .ok (sub', rest')) :
    ∃ t, t.kind = .closing ∧ rest = t :: rest' ∧ sub' = sub := by
  cases rest with
  | nil => cases h
  | cons t tail =>
    simp only [close] at h
    split at h
    · rename_i ht
      cases h
      exact ⟨t, ht, rfl, rfl⟩
    · cases h

theorem close_error {opened : Nat} (h : close fault opened sub rest = .error e) :
    (rest = [] ∧ e = atEnd fault (.unclosed opened)) ∨
      ∃ t tail, rest = t :: tail ∧ t.kind ≠ .closing ∧ e = .expectedClosing t.spelling t.position := by
  cases rest with
  | nil =>
    cases h
    exact Or.inl ⟨rfl, rfl⟩
  | cons t tail =>
    simp only [close] at h
    split at h
    · cases h
    · rename_i ht
      cases h
      exact Or.inr ⟨t, tail, rfl, ht, rfl⟩

theorem deeper_ok {inner : Option Reader} {position : Nat} (h : deeper inner position tokens = .ok (sub, rest)) :
    ∃ read, inner = some read ∧ read tokens = .ok (sub, rest) := by
  cases inner with
  | none => cases h
  | some read => exact ⟨read, rfl, h⟩

theorem deeper_error {inner : Option Reader} {position : Nat} (h : deeper inner position tokens = .error e) :
    (inner = none ∧ e = .tooDeep position) ∨ ∃ read, inner = some read ∧ read tokens = .error e := by
  cases inner with
  | none =>
    cases h
    exact Or.inl ⟨rfl, rfl⟩
  | some read => exact Or.inr ⟨read, rfl, h⟩

/-! ## Chains -/

/-- the loop of a chain: with `left` read and `rest` to come, it ends with `sub` and `rest'` -/
inductive Loop (fault : Option UnknownChar) (op : Connective) (read : Reader) :
    Sub → List Token → Sub → List Token → Prop where
  | stop {left : Sub} {rest : List Token} :
      (∀ t ∈ rest.head?, t.kind ≠ .connective op) → Loop fault op read left rest left rest
  | turn {left right joined sub : Sub} {t : Token} {rest rest₁ rest' : List Token} :
      t.kind = .connective op → operandAfter fault t rest = .ok () → read rest = .ok (right, rest₁) →
        left.join op right t.position = .ok joined → Loop fault op read joined rest₁ sub rest' →
          Loop fault op read left (t :: rest) sub rest'

/-- the loop of a chain fails: no operand can follow the connective, none is read, the node is too tall, or a later turn
fails -/
inductive LoopFails (fault : Option UnknownChar) (op : Connective) (read : Reader) :
    Sub → List Token → SyntaxError → Prop where
  | lacking {left : Sub} {t : Token} {rest : List Token} {e : SyntaxError} :
      t.kind = .connective op → operandAfter fault t rest = .error e → LoopFails fault op read left (t :: rest) e
  | operand {left : Sub} {t : Token} {rest : List Token} {e : SyntaxError} :
      t.kind = .connective op → operandAfter fault t rest = .ok () → read rest = .error e →
        LoopFails fault op read left (t :: rest) e
  | tall {left right : Sub} {t : Token} {rest rest₁ : List Token} {e : SyntaxError} :
      t.kind = .connective op → operandAfter fault t rest = .ok () → read rest = .ok (right, rest₁) →
        left.join op right t.position = .error e → LoopFails fault op read left (t :: rest) e
  | later {left right joined : Sub} {t : Token} {rest rest₁ : List Token} {e : SyntaxError} :
      t.kind = .connective op → operandAfter fault t rest = .ok () → read rest = .ok (right, rest₁) →
        left.join op right t.position = .ok joined → LoopFails fault op read joined rest₁ e →
          LoopFails fault op read left (t :: rest) e

theorem loop_of_more_ok (hc : Consumes read) (bound : List Token) (hb : rest.length ≤ bound.length)
    (h : more fault op read bound left rest = .ok (sub, rest')) : Loop fault op read left rest sub rest' := by
  induction bound generalizing left rest with
  | nil =>
    have hnil : rest = [] := List.length_eq_zero_iff.1 (Nat.le_zero.1 hb)
    subst hnil
    cases h
    exact .stop (by simp)
  | cons _ bound ih =>
    cases rest with
    | nil =>
      cases h
      exact .stop (by simp)
    | cons t rest =>
      unfold more at h
      split at h
      · rename_i ht
        obtain ⟨_, ha, h⟩ := ok_of_bind h
        obtain ⟨⟨right, rest₁⟩, hread, h⟩ := ok_of_bind h
        obtain ⟨joined, hj, h⟩ := ok_of_bind h
        have hlt := hc _ _ _ hread
        simp only [List.length_cons] at hb
        exact .turn ht ha hread hj (ih (by omega) h)
      · rename_i ht
        cases h
        exact .stop (by simpa using ht)

theorem more_of_loop (hc : Consumes read) (bound : List Token) (hb : rest.length ≤ bound.length)
    (h : Loop fault op read left rest sub rest') : more fault op read bound left rest = .ok (sub, rest') := by
  induction h generalizing bound with
  | @stop left rest hstop =>
    cases bound with
    | nil => rfl
    | cons b bound =>
      cases rest with
      | nil => rfl
      | cons t rest => exact if_neg (hstop t rfl)
  | @turn left right joined sub t rest rest₁ rest' ht ha hread hj _ ih =>
    cases bound with
    | nil => cases hb
    | cons b bound =>
      have hlt := hc _ _ _ hread
      simp only [List.length_cons] at hb
      have hmore := ih bound (by omega)
      unfold more
      simp only [if_pos ht, ha, hread, hj, bind, Except.bind, hmore]

theorem loopFails_of_more_error (bound : List Token) (h : more fault op read bound left rest = .error e) :
    LoopFails fault op read left rest e := by
  induction bound generalizing left rest with
  | nil => cases h
  | cons _ bound ih =>
    cases rest with
    | nil => cases h
    | cons t rest =>
      unfold more at h
      split at h
      · rename_i ht
        rcases error_of_bind h with ha | ⟨_, ha, h⟩
        · exact .lacking ht ha
        rcases error_of_bind h with hread | ⟨⟨right, rest₁⟩, hread, h⟩
        · exact .operand ht ha hread
        rcases error_of_bind h with hj | ⟨joined, hj, h⟩
        · exact .tall ht ha hread hj
        · exact .later ht ha hread hj (ih h)
      · cases h

theorem more_of_loopFails (hc : Consumes read) (bound : List Token) (hb : rest.length ≤ bound.length)
    (h : LoopFails fault op read left rest e) : more fault op read bound left rest = .error e := by
  induction bound generalizing left rest with
  | nil => cases h <;> cases hb
  | cons _ bound ih =>
    cases h with
    | lacking ht ha => simp only [more, if_pos ht, ha, bind, Except.bind]
    | operand ht ha hread => simp only [more, if_pos ht, ha, hread, bind, Except.bind]
    | tall ht ha hread hj => simp only [more, if_pos ht, ha, hread, hj, bind, Except.bind]
    | later ht ha hread hj hlater =>
      have hlt := hc _ _ _ hread
      simp only [List.length_cons] at hb
      have hmore := ih (by omega) hlater
      simp only [more, if_pos ht, ha, hread, hj, bind, Except.bind, hmore]

theorem chain_ok (hc : Consumes read) (h : chain fault op read tokens = .ok (sub, rest')) :
    ∃ first rest, read tokens = .ok (first, rest) ∧ Loop fault op read first rest sub rest' := by
  obtain ⟨⟨first, rest⟩, hread, h⟩ := ok_of_bind h
  exact ⟨first, rest, hread, loop_of_more_ok hc rest (Nat.le_refl _) h⟩

theorem chain_error (h : chain fault op read tokens = .error e) :
    read tokens = .error e ∨ ∃ first rest, read tokens = .ok (first, rest) ∧ LoopFails fault op read first rest e := by
  rcases error_of_bind h with hread | ⟨⟨first, rest⟩, hread, h⟩
  · exact Or.inl hread
  · exact Or.inr ⟨first, rest, hread, loopFails_of_more_error rest h⟩

theorem chain_of_loop (hc : Consumes read) {first : Sub} (hread : read tokens = .ok (first, rest))
    (h : Loop fault op read first rest sub rest') : chain fault op read tokens = .ok (sub, rest') := by
  rw [chain, hread]
  exact more_of_loop hc rest (Nat.le_refl _) h

theorem chain_of_loopFails (hc : Consumes read) {first : Sub} (hread : read tokens = .ok (first, rest))
    (h : LoopFails fault op read first rest e) : chain fault op read tokens = .error e := by
  rw [chain, hread]
  exact more_of_loopFails hc rest (Nat.le_refl _) h

/-- a chain fails where its first operand does -/
theorem chain_of_error (h : read tokens = .error e) : chain fault op read tokens = .error e := by
  rw [chain, h]
  rfl

/-- and where its second one does -/
theorem chain_of_second_error (hread : read tokens = .ok (left, t :: rest)) (ht : t.kind = .connective op)
    (ha : operandAfter fault t rest = .ok ()) (h : read rest = .error e) : chain fault op read tokens = .error e := by
  rw [chain, hread]
  show more fault op read (t :: rest) left (t :: rest) = .error e
  simp only [more, if_pos ht, ha, h, bind, Except.bind]

/-! ## Operands -/

/-- an operand is read: a variable, a negation or a group; `inner` reads one level deeper -/
inductive Operand (fault : Option UnknownChar) (inner : Option Reader) : List Token → Sub → List Token → Prop where
  | var {t : Token} {rest : List Token} : t.kind = .ident → Operand fault inner (t :: rest) (.var t.spelling) rest
  | negation {t : Token} {tail rest : List Token} {read : Reader} {sub sub' : Sub} :
      t.kind = .not → operandAfter fault t tail = .ok () → inner = some read → read tail = .ok (sub, rest) →
        sub.negate t.position = .ok sub' → Operand fault inner (t :: tail) sub' rest
  | group {opened closed : Token} {tail rest : List Token} {read : Reader} {sub : Sub} :
      opened.kind = .opening → inner = some read → formulaOf fault read tail = .ok (sub, closed :: rest) →
        closed.kind = .closing → Operand fault inner (opened :: tail) sub rest

/-- reading an operand fails: nothing there begins one, no room is left for what stands inside it, that fails itself, or
its end does -/
inductive OperandFails (fault : Option UnknownChar) (inner : Option Reader) : List Token → SyntaxError → Prop where
  | nothing : OperandFails fault inner [] (atEnd fault .empty)
  | connective {t : Token} {tail : List Token} {op : Connective} :
      t.kind = .connective op → OperandFails fault inner (t :: tail) (.missingOperand t.spelling t.position)
  | closing {t : Token} {tail : List Token} :
      t.kind = .closing → OperandFails fault inner (t :: tail) (.unmatched t.position)
  | lacking {t : Token} {tail : List Token} {e : SyntaxError} :
      t.kind = .not → operandAfter fault t tail = .error e → OperandFails fault inner (t :: tail) e
  | unclosed {t : Token} :
      t.kind = .opening → fault = none → OperandFails fault inner [t] (.unclosed t.position)
  | noRoom {t : Token} {tail : List Token} :
      (t.kind = .not ∧ operandAfter fault t tail = .ok () ∨ t.kind = .opening ∧ ¬ (tail = [] ∧ fault = none)) →
        inner = none → OperandFails fault inner (t :: tail) (.tooDeep t.position)
  | negated {t : Token} {tail : List Token} {read : Reader} {e : SyntaxError} :
      t.kind = .not → operandAfter fault t tail = .ok () → inner = some read → read tail = .error e →
        OperandFails fault inner (t :: tail) e
  | tall {t : Token} {tail rest : List Token} {read : Reader} {sub : Sub} {e : SyntaxError} :
      t.kind = .not → operandAfter fault t tail = .ok () → inner = some read → read tail = .ok (sub, rest) →
        sub.negate t.position = .error e → OperandFails fault inner (t :: tail) e
  | grouped {t : Token} {tail : List Token} {read : Reader} {e : SyntaxError} :
      t.kind = .opening → ¬ (tail = [] ∧ fault = none) → inner = some read → formulaOf fault read tail = .error e →
        OperandFails fault inner (t :: tail) e
  | unended {t : Token} {tail rest : List Token} {read : Reader} {sub : Sub} {e : SyntaxError} :
      t.kind = .opening → ¬ (tail = [] ∧ fault = none) → inner = some read →
        formulaOf fault read tail = .ok (sub, rest) → close fault t.position sub rest = .error e →
          OperandFails fault inner (t :: tail) e

theorem operand_of_ok {inner : Option Reader} (h : unaryOf fault inner tokens = .ok (sub, rest)) :
    Operand fault inner tokens sub rest := by
  cases tokens with
  | nil => cases h
  | cons t tail =>
    simp only [unaryOf] at h
    split at h
    · rename_i ht
      cases h
      exact .var ht
    · cases h
    · cases h
    · rename_i ht
      obtain ⟨_, ha, h⟩ := ok_of_bind h
      obtain ⟨⟨inside, rest₁⟩, hd, h⟩ := ok_of_bind h
      obtain ⟨negated, hn, h⟩ := ok_of_bind h
      cases h
      obtain ⟨read, hi, hread⟩ := deeper_ok hd
      exact .negation ht ha hi hread hn
    · rename_i ht
      split at h
      · cases h
      · obtain ⟨⟨inside, rest₁⟩, hd, h⟩ := ok_of_bind h
        obtain ⟨_, hmap, hread⟩ := deeper_ok hd
        obtain ⟨read, hi, rfl⟩ := Option.map_eq_some_iff.1 hmap
        obtain ⟨closed, hc, rfl, rfl⟩ := close_ok h
        exact .group ht hi hread hc

theorem operandFails_of_error {inner : Option Reader} (h : unaryOf fault inner tokens = .error e) :
    OperandFails fault inner tokens e := by
  cases tokens with
  | nil =>
    cases h
    exact .nothing
  | cons t tail =>
    simp only [unaryOf] at h
    split at h
    · cases h
    · rename_i ht
      cases h
      exact .connective ht
    · rename_i ht
      cases h
      exact .closing ht
    · rename_i ht
      rcases error_of_bind h with ha | ⟨_, ha, h⟩
      · exact .lacking ht ha
      rcases error_of_bind h with hd | ⟨⟨inside, rest₁⟩, hd, h⟩
      · rcases deeper_error hd with ⟨hi, rfl⟩ | ⟨read, hi, hread⟩
        · exact .noRoom (Or.inl ⟨ht, ha⟩) hi
        · exact .negated ht ha hi hread
      obtain ⟨read, hi, hread⟩ := deeper_ok hd
      rcases error_of_bind h with hn | ⟨negated, _, h⟩
      · exact .tall ht ha hi hread hn
      · cases h
    · rename_i ht
      split at h
      · rename_i hnil
        obtain ⟨rfl, hf⟩ := hnil
        cases h
        exact .unclosed ht hf
      · rename_i hne
        rcases error_of_bind h with hd | ⟨⟨inside, rest₁⟩, hd, hc⟩
        · rcases deeper_error hd with ⟨hi, rfl⟩ | ⟨_, hmap, hread⟩
          · exact .noRoom (Or.inr ⟨ht, hne⟩) (Option.map_eq_none_iff.1 hi)
          · obtain ⟨read, hi, rfl⟩ := Option.map_eq_some_iff.1 hmap
            exact .grouped ht hne hi hread
        · obtain ⟨_, hmap, hread⟩ := deeper_ok hd
          obtain ⟨read, hi, rfl⟩ := Option.map_eq_some_iff.1 hmap
          exact .unended ht hne hi hread hc

/-- what holds of reading an operand wherever it holds one level deeper holds with any room -/
theorem unary_induction {motive : Nat → Reader → Prop}
    (h : ∀ room inner, (∀ read, inner = some read → ∃ less, room = less + 1 ∧ read = unary fault less ∧ motive less read) →
      motive room (unaryOf fault inner)) (room : Nat) : motive room (unary fault room) := by
  induction room with
  | zero =>
    apply h
    intro read hi
    cases hi
  | succ room ih =>
    apply h
    intro read hi
    cases hi
    exact ⟨room, rfl, rfl, ih⟩

end Sequitur.Parser
