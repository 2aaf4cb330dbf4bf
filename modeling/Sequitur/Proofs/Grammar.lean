/-
The grammar of formulas.

    biconditional  :=  implication ( IFF implication )*
    implication    :=  disjunction ( IMPLIES disjunction )*
    disjunction    :=  conjunction ( OR conjunction )*
    conjunction    :=  negation ( AND negation )*
    negation       :=  NOT negation  |  primary
    primary        :=  VAR  |  LPAREN biconditional RPAREN

Every `( … )*` folds to the left, so a level of joined operands is left recursive: its left part is of the same level, its
right part of the next tighter one. `Derives` says that a whole token sequence derives a formula at a level, and how deep
the derivation nests: a negation and a group each add one to what stands inside them. It knows nothing of limits, of
reading ahead or of the order in which tokens are read.

`Ends` is what tells a reader of a level that it is done: no connective of the level or of a tighter one comes next.
-/
import Sequitur.Formula.Parser

namespace Sequitur.Grammar

/-- the levels of the grammar, from the loosest: operands joined by a connective, negations, primaries -/
inductive Level where
  | joined (op : Connective)
  | negation
  | primary

/-- the level of the operands that a connective joins -/
def operand : Connective → Level
  | .equiv => .joined .impl
  | .impl => .joined .or
  | .or => .joined .and
  | .and => .negation

/-- the level of a whole formula -/
def biconditional : Level := .joined .equiv

/-- a token sequence derives a formula at a level; the number is the nesting of the derivation -/
inductive Derives : Level → List Token → Formula → Nat → Prop where
  | single {op : Connective} {used : List Token} {f : Formula} {n : Nat} :
      Derives (operand op) used f n → Derives (.joined op) used f n
  | fold {op : Connective} {used used' : List Token} {t : Token} {f g : Formula} {n m : Nat} :
      Derives (.joined op) used f n → t.kind = .connective op → Derives (operand op) used' g m →
        Derives (.joined op) (used ++ t :: used') (.bin op f g) (max n m)
  | plain {used : List Token} {f : Formula} {n : Nat} :
      Derives .primary used f n → Derives .negation used f n
  | negate {t : Token} {used : List Token} {f : Formula} {n : Nat} :
      t.kind = .not → Derives .negation used f n → Derives .negation (t :: used) (.not f) (n + 1)
  | var {t : Token} : t.kind = .ident → Derives .primary [t] (.var t.spelling) 0
  | group {opened closed : Token} {used : List Token} {f : Formula} {n : Nat} :
      opened.kind = .opening → Derives biconditional used f n → closed.kind = .closing →
        Derives .primary (opened :: (used ++ [closed])) f (n + 1)

/-- what holds of negations, and of joined operands wherever it holds of what they join, holds of all joined operands -/
theorem joined_induction {motive : Level → Prop} (hnegation : motive .negation)
    (hjoined : ∀ op, motive (operand op) → motive (.joined op)) (op : Connective) : motive (.joined op) := by
  have hand : motive (.joined .and) := hjoined .and hnegation
  have hor : motive (.joined .or) := hjoined .or hand
  have himpl : motive (.joined .impl) := hjoined .impl hor
  cases op with
  | and => exact hand
  | or => exact hor
  | impl => exact himpl
  | equiv => exact hjoined .equiv himpl

/-- and then it holds of what they join -/
theorem operand_induction {motive : Level → Prop} (hnegation : motive .negation)
    (hjoined : ∀ op, motive (operand op) → motive (.joined op)) (op : Connective) : motive (operand op) := by
  cases op with
  | and => exact hnegation
  | or => exact joined_induction hnegation hjoined .and
  | impl => exact joined_induction hnegation hjoined .or
  | equiv => exact joined_induction hnegation hjoined .impl

/-- what passes from operands to what joins them passes from any joined operands to a whole formula -/
theorem biconditional_of_joined {motive : Level → Prop} (hjoined : ∀ op, motive (operand op) → motive (.joined op))
    {op : Connective} (h : motive (.joined op)) : motive biconditional := by
  have ofImpl (h : motive (.joined .impl)) : motive biconditional := hjoined .equiv h
  have ofOr (h : motive (.joined .or)) : motive biconditional := ofImpl (hjoined .impl h)
  cases op with
  | and => exact ofOr (hjoined .or h)
  | or => exact ofOr h
  | impl => exact ofImpl h
  | equiv => exact h

/-! ## Where a level ends -/

/-- how loosely a connective binds -/
def looseness : Connective → Nat
  | .and => 1
  | .or => 2
  | .impl => 3
  | .equiv => 4

def Level.looseness : Level → Nat
  | .joined op => Grammar.looseness op
  | .negation => 0
  | .primary => 0

/-- what comes next is no connective of this level or of a tighter one -/
def Ends (level : Level) (rest : List Token) : Prop :=
  ∀ t ∈ rest.head?, ∀ op, t.kind = .connective op → level.looseness < looseness op

theorem looseness_operand (op : Connective) : (operand op).looseness + 1 = looseness op := by
  cases op <;> rfl

theorem looseness_inj {op op' : Connective} (h : looseness op = looseness op') : op = op' := by
  cases op <;> cases op' <;> first | rfl | cases h

theorem ends_nil (level : Level) : Ends level [] := by
  intro t ht
  cases ht

theorem ends_cons {level : Level} {t : Token} {rest : List Token} :
    Ends level (t :: rest) ↔ ∀ op, t.kind = .connective op → level.looseness < looseness op := by
  constructor
  · intro h
    exact h t rfl
  · intro h t' ht'
    cases ht'
    exact h

/-- negations and primaries end wherever they are complete -/
theorem ends_of_looseness_eq_zero {level : Level} {rest : List Token} (h : level.looseness = 0) : Ends level rest := by
  intro t _ op _
  rw [h]
  cases op <;> decide

theorem Ends.of_le {level level' : Level} {rest : List Token} (h : Ends level rest)
    (hle : level'.looseness ≤ level.looseness) : Ends level' rest :=
  fun t ht op hop => Nat.lt_of_le_of_lt hle (h t ht op hop)

/-- past its operands a level goes on only with its own connective -/
theorem Ends.joined {op : Connective} {rest : List Token} (h : Ends (operand op) rest)
    (hne : ∀ t ∈ rest.head?, t.kind ≠ .connective op) : Ends (.joined op) rest := by
  intro t ht op' hop'
  have hlt : (operand op).looseness < looseness op' := h t ht op' hop'
  have hop : looseness op ≠ looseness op' := by
    intro heq
    rw [looseness_inj heq] at hne
    exact hne t ht hop'
  have hsucc := looseness_operand op
  show looseness op < looseness op'
  omega

/-- after a whole formula no connective comes next -/
theorem Ends.not_connective {t : Token} {rest : List Token} (h : Ends biconditional (t :: rest)) (op : Connective) :
    t.kind ≠ .connective op := by
  intro hop
  have hlt : biconditional.looseness < looseness op := ends_cons.1 h op hop
  cases op <;> exact absurd hlt (by decide)

/-! ## Derivations -/

/-- a derivation begins with a token that an operand can begin with -/
theorem Derives.starts {level : Level} {used : List Token} {f : Formula} {n : Nat} (h : Derives level used f n) :
    ∃ t tail, used = t :: tail ∧ t.kind.startsOperand = true := by
  induction h with
  | single _ ih => exact ih
  | fold _ _ _ ih _ =>
    obtain ⟨t, tail, rfl, ht⟩ := ih
    exact ⟨t, _, List.cons_append .., ht⟩
  | plain _ ih => exact ih
  | negate ht _ _ => exact ⟨_, _, rfl, by rw [ht]; rfl⟩
  | var ht => exact ⟨_, _, rfl, by rw [ht]; rfl⟩
  | group ht _ _ _ => exact ⟨_, _, rfl, by rw [ht]; rfl⟩

end Sequitur.Grammar
