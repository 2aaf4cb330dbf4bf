/-
Columns of a truth table.

Each atom doubles the number of assignments. They are numbered by their masks: bit `i` of the mask is the value of atom
`i`. The column of a formula is the bit vector of its values under all of them, and it is worked out as a whole: the atoms
have fixed columns, and a connective joins the columns of its operands bit by bit.

Main statements: `getLsbD_column`, the bit at a mask is what evaluation under that mask gives, and `beside_eq`, columns
side by side are read row by row.
-/
import Sequitur.Formula.Eval

namespace Sequitur

/-- the assignment numbered `mask`: an atom's value is the bit at its place -/
def maskValue (atoms : List String) (mask : Nat) : Interpretation :=
  fun a => (atoms.idxOf? a).map mask.testBit

/-- whether a formula evaluates to true -/
def Formula.holds (I : Interpretation) (f : Formula) : Bool :=
  match f.eval I with
  | .ok b => b
  | .error _ => false

/-- how many assignments `n` atoms have -/
def maskCount : Nat → Nat
  | 0 => 1
  | n + 1 =>
    let half := maskCount n
    half + half

theorem maskCount_succ (n : Nat) : maskCount (n + 1) = maskCount n + maskCount n := rfl

theorem maskCount_eq (n : Nat) : maskCount n = Nat.pow 2 n := by
  induction n with
  | zero => rfl
  | succ n ih => rw [maskCount_succ, ih]; exact (Nat.two_pow_succ n).symm

/-- a bit for each assignment of `n` atoms -/
abbrev Column (n : Nat) := BitVec (maskCount n)

namespace Column

/-- the column of the atom at place `i`: each atom more doubles the column, the last one is false and then true -/
def atom (i : Nat) : (n : Nat) → Column n
  | 0 => BitVec.zero _
  | n + 1 =>
    if i = n then (BitVec.allOnes (maskCount n) ++ BitVec.zero (maskCount n)).cast (maskCount_succ n).symm
    else (atom i n ++ atom i n).cast (maskCount_succ n).symm

def join : Connective → Column n → Column n → Column n
  | .and, l, r => l &&& r
  | .or, l, r => l ||| r
  | .impl, l, r => ~~~l ||| r
  | .equiv, l, r => ~~~(l ^^^ r)

/-- the bits from the first mask to the last -/
def bits : (n : Nat) → Column n → List Bool
  | 0, c => [c.getLsbD 0]
  | n + 1, c => bits n (c.extractLsb' 0 (maskCount n)) ++ bits n (c.extractLsb' (maskCount n) (maskCount n))

/-- columns side by side: for each mask its bits in all of them -/
def beside (n : Nat) (columns : List (Column n)) : List (List Bool) :=
  columns.foldr (fun c rows => List.zipWith List.cons (bits n c) rows) (List.replicate (maskCount n) [])

theorem getLsbD_atom {i n mask : Nat} (hi : i < n) (hm : mask < maskCount n) :
    (atom i n).getLsbD mask = mask.testBit i := by
  induction n generalizing mask with
  | zero => omega
  | succ n ih =>
    have hp : maskCount n = 2 ^ n := maskCount_eq n
    rw [maskCount_succ] at hm
    by_cases hl : mask < maskCount n
    · by_cases hin : i = n
      · subst hin
        simp [atom, hl, BitVec.getLsbD_append, Nat.testBit_lt_two_pow (hp ▸ hl)]
      · rw [atom, if_neg hin, BitVec.getLsbD_cast, BitVec.getLsbD_append, if_pos hl, ih (by omega) hl]
    · obtain ⟨k, rfl⟩ := Nat.exists_eq_add_of_le (Nat.not_lt.1 hl)
      have hk : k < maskCount n := by omega
      have hbit : (maskCount n + k).testBit n = true := by
        rw [hp, Nat.testBit_two_pow_add_eq, Nat.testBit_lt_two_pow (hp ▸ hk), Bool.not_false]
      by_cases hin : i = n
      · subst hin
        simp [atom, BitVec.getLsbD_append, hk, hbit]
      · rw [atom, if_neg hin, BitVec.getLsbD_cast, BitVec.getLsbD_append, if_neg hl, Nat.add_sub_cancel_left,
          ih (by omega) hk, hp, Nat.testBit_two_pow_add_gt (by omega)]

theorem getLsbD_join (op : Connective) (l r : Column n) {mask : Nat} (hm : mask < maskCount n) :
    (join op l r).getLsbD mask = op.apply (l.getLsbD mask) (r.getLsbD mask) := by
  cases op with
  | equiv => cases h : l[mask] <;> cases h' : r[mask] <;> simp [join, Connective.apply, hm, h, h']
  | _ => simp [join, Connective.apply, hm]

theorem bits_eq (n : Nat) (c : Column n) : bits n c = (List.range (maskCount n)).map c.getLsbD := by
  induction n with
  | zero => simp [bits, maskCount]
  | succ n ih =>
    have split : List.range (maskCount (n + 1)) = List.range (maskCount n) ++ (List.range (maskCount n)).map (maskCount n + ·) := by
      rw [maskCount_succ, List.range_add]
    rw [bits, ih, ih, split, List.map_append, List.map_map]
    congr 1 <;> refine List.map_congr_left fun k hk => ?_
    · rw [BitVec.getLsbD_extractLsb', decide_eq_true (List.mem_range.1 hk), Nat.zero_add, Bool.true_and]
    · rw [BitVec.getLsbD_extractLsb', decide_eq_true (List.mem_range.1 hk), Bool.true_and, Function.comp_apply]

theorem beside_eq (n : Nat) (columns : List (Column n)) :
    beside n columns = (List.range (maskCount n)).map fun mask => columns.map fun c => c.getLsbD mask := by
  induction columns with
  | nil => simp [beside, List.map_const']
  | cons c cs ih =>
    rw [beside, List.foldr_cons, ← beside, ih, bits_eq, List.zipWith_map, List.zipWith_self]
    rfl

end Column

namespace Formula

/-- the column of a formula, if all its variables are among the atoms -/
def column? (atoms : List String) : Formula → Option (Column atoms.length)
  | var a => (atoms.idxOf? a).map fun i => Column.atom i atoms.length
  | not f => (f.column? atoms).map (~~~·)
  | bin op l r => (l.column? atoms).bind fun x => (r.column? atoms).map fun y => Column.join op x y

/-- the column of a formula; a variable that is no atom leaves it false throughout -/
def column (atoms : List String) (f : Formula) : Column atoms.length := (f.column? atoms).getD (BitVec.zero _)

theorem eval_maskValue (f : Formula) {atoms : List String} {mask : Nat} (hm : mask < maskCount atoms.length) :
    match f.column? atoms with
    | some c => f.eval (maskValue atoms mask) = .ok (c.getLsbD mask)
    | none => ∃ e, f.eval (maskValue atoms mask) = .error e := by
  induction f with
  | var a =>
    cases h : atoms.idxOf? a with
    | none => simp [column?, eval, maskValue, h]
    | some i =>
      obtain ⟨hi, -⟩ := List.idxOf?_eq_some_iff.1 h
      simp [column?, eval, maskValue, h, Column.getLsbD_atom hi hm]
  | not f ih =>
    cases h : f.column? atoms with
    | none =>
      simp only [h] at ih
      obtain ⟨e, he⟩ := ih
      simp [column?, h, eval, he, bind, Except.bind]
    | some c =>
      simp only [h] at ih
      simp [column?, h, eval, ih, bind, Except.bind, pure, Except.pure, hm]
  | bin op l r ihl ihr =>
    cases hl : l.column? atoms with
    | none =>
      simp only [hl] at ihl
      obtain ⟨e, he⟩ := ihl
      simp [column?, hl, eval, he, bind, Except.bind]
    | some x =>
      simp only [hl] at ihl
      cases hr : r.column? atoms with
      | none =>
        simp only [hr] at ihr
        obtain ⟨e, he⟩ := ihr
        simp [column?, hl, hr, eval, ihl, he, bind, Except.bind]
      | some y =>
        simp only [hr] at ihr
        simp [column?, hl, hr, eval, ihl, ihr, bind, Except.bind, pure, Except.pure, Column.getLsbD_join op x y hm]

/-- the bit at a mask is what evaluation under that mask gives -/
theorem getLsbD_column (f : Formula) {atoms : List String} {mask : Nat} (hm : mask < maskCount atoms.length) :
    (f.column atoms).getLsbD mask = f.holds (maskValue atoms mask) := by
  have h := f.eval_maskValue hm
  rw [column, holds]
  split at h
  · rename_i c hc
    simp [h, hc]
  · rename_i hc
    obtain ⟨e, he⟩ := h
    simp [he, hc]

end Formula

end Sequitur
