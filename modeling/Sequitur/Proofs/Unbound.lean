/-
Evaluation where names are left open.

An interpretation need not give every name a value. Where it leaves no variable of a formula open, evaluation is classical:
it gives the truth value under any interpretation of all names that goes on from it. Where it does leave one open, evaluation
reports a variable, and always the same one: the first that is open when the formula is read from left to right. What the
operands evaluated so far would have settled already makes no difference, since none of them is ever left out.

- `Formula.eval_of_firstOpen`: the first open variable is reported;
- `Formula.eval_congr`: evaluation looks at an interpretation at the variables of the formula only;
- `Formula.eval_is_classical`: all results of evaluation, and all its errors.
-/
import Sequitur.Assignment
import Sequitur.Proofs.Truth

namespace Sequitur

namespace Interpretation

/-- `v` gives every name a value, and those that have one already the same -/
def GoesOnAs (I : Interpretation) (v : String → Bool) : Prop := ∀ a b, I a = some b → v a = b

/-- no name is left open -/
def Binds (I : Interpretation) (names : List String) : Prop := ∀ a ∈ names, ∃ b, I a = some b

/-- `a` is the first of the names that is left open -/
def FirstOpen (I : Interpretation) (names : List String) (a : String) : Prop :=
  ∃ before after, names = before ++ a :: after ∧ I.Binds before ∧ I a = none

/-- the names that are left open made false -/
def filled (I : Interpretation) : String → Bool := fun a => (I a).getD false

variable {I : Interpretation} {names more : List String} {a : String}

theorem goesOnAs_filled (I : Interpretation) : I.GoesOnAs I.filled := by
  intro a b h
  rw [filled, h]
  rfl

theorem GoesOnAs.eq_some {v : String → Bool} (h : I.GoesOnAs v) (hbinds : I.Binds names) :
    ∀ a ∈ names, I a = some (v a) := by
  intro a ha
  obtain ⟨b, hb⟩ := hbinds a ha
  rw [hb, h a b hb]

/-- either all names are bound, or there is a first that is open -/
theorem binds_or_firstOpen (I : Interpretation) (names : List String) : I.Binds names ∨ ∃ a, I.FirstOpen names a := by
  induction names with
  | nil => exact .inl nofun
  | cons c names ih =>
    cases hc : I c with
    | none => exact .inr ⟨c, [], names, rfl, nofun, hc⟩
    | some b =>
      have hbinds {names : List String} (h : I.Binds names) : I.Binds (c :: names) := by
        intro a ha
        rcases List.mem_cons.1 ha with rfl | ha
        · exact ⟨b, hc⟩
        · exact h a ha
      rcases ih with h | ⟨a, before, after, rfl, hbefore, ha⟩
      · exact .inl (hbinds h)
      · exact .inr ⟨a, c :: before, after, rfl, hbinds hbefore, ha⟩

/-- what is the first open name of two lists is so of the first list, or the first list is bound and it is so of the second -/
theorem FirstOpen.of_append (h : I.FirstOpen (names ++ more) a) :
    I.FirstOpen names a ∨ I.Binds names ∧ I.FirstOpen more a := by
  obtain ⟨before, after, heq, hbefore, ha⟩ := h
  rcases List.append_eq_append_iff.1 heq with ⟨rest, rfl, hmore⟩ | ⟨rest, rfl, hafter⟩
  · refine .inr ⟨fun b hb => hbefore b (List.mem_append_left _ hb), rest, after, hmore, ?_, ha⟩
    exact fun b hb => hbefore b (List.mem_append_right _ hb)
  · cases rest with
    | nil =>
      rw [List.append_nil]
      exact .inr ⟨hbefore, [], after, hafter.symm, nofun, ha⟩
    | cons c rest =>
      obtain ⟨rfl, -⟩ := List.cons_eq_cons.1 hafter
      exact .inl ⟨before, rest, rfl, hbefore, ha⟩

end Interpretation

namespace Formula

open Interpretation

variable {I J : Interpretation} {f : Formula} {a : String}

/-- the first open variable is the one that is reported, whatever the operands before it are worth -/
theorem eval_of_firstOpen (h : I.FirstOpen f.occurrences a) : f.eval I = .error ⟨a⟩ := by
  induction f with
  | var c =>
    obtain ⟨before, after, heq, -, ha⟩ := h
    have hmem : a ∈ (var c).occurrences := by
      rw [heq]
      exact List.mem_append_right _ List.mem_cons_self
    obtain rfl : a = c := List.mem_singleton.1 hmem
    simp only [eval, ha]
  | not f ih =>
    have hf : f.eval I = .error ⟨a⟩ := ih h
    rw [eval, hf]
    rfl
  | bin op l r ihl ihr =>
    rcases h.of_append with hl | ⟨hbinds, hr⟩
    · rw [eval, ihl hl]
      rfl
    · have hl : l.eval I = .ok (l.truth I.filled) := eval_eq_truth ((goesOnAs_filled I).eq_some hbinds)
      rw [eval, hl, ihr hr]
      rfl

/-- interpretations that agree on the variables of a formula evaluate it alike -/
theorem eval_congr (h : ∀ a ∈ f.occurrences, I a = J a) : f.eval I = f.eval J := by
  induction f with
  | var a =>
    have ha : I a = J a := h a (List.mem_singleton.2 rfl)
    rw [eval, eval, ha]
  | not f ih => rw [eval, eval, ih h]
  | bin op l r ihl ihr =>
    have hl : l.eval I = l.eval J := ihl fun a ha => h a (List.mem_append_left _ ha)
    have hr : r.eval I = r.eval J := ihr fun a ha => h a (List.mem_append_right _ ha)
    rw [eval, eval, hl, hr]

/-- **Evaluation is classical, and reports the first open variable.** Where all variables of the formula are bound, it gives
the classical truth value, the same under every interpretation of all names that goes on from the given one (`filled` is
one). Where a variable is open, it fails, and reports the first of them from left to right. And it depends on nothing but the
values of the variables that occur. -/
theorem eval_is_classical (f : Formula) (I : Interpretation) :
    (I.Binds f.occurrences → ∀ v, I.GoesOnAs v → f.eval I = .ok (f.truth v)) ∧
      (¬ I.Binds f.occurrences → ∃ a, I.FirstOpen f.occurrences a ∧ f.eval I = .error ⟨a⟩) ∧
      ∀ J : Interpretation, (∀ a ∈ f.occurrences, I a = J a) → f.eval I = f.eval J := by
  refine ⟨fun hbinds v hv => eval_eq_truth (hv.eq_some hbinds), fun hopen => ?_, fun J => eval_congr⟩
  obtain ⟨a, ha⟩ := (binds_or_firstOpen I f.occurrences).resolve_left hopen
  exact ⟨a, ha, eval_of_firstOpen ha⟩

/-- a false operand settles a conjunction, and yet the open one behind it is reported -/
example : (Formula.bin .and (.var "P") (.bin .or (.var "Q") (.var "R"))).eval
    (Assignment.value? [("P", false), ("Q", true)]) = .error ⟨"R"⟩ := rfl

end Formula

end Sequitur
