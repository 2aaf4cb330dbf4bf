/-
The canonical spelling has one reading.

The parser reads canonical spellings back only up to its limits on depth, and only where no name is a keyword. That two
formulas are never spelled alike has nothing to do with the parser: it holds of formulas of any height, as long as their
names are words, keywords among them. The first character shows whether a variable, a negation or a group begins. A negation
and a group show where they end; a word does not, but behind it there is nothing, a blank or a closing parenthesis, and
with none of them a word goes on.

- `Formula.form_eq_of_render`: equal texts that begin with spellings begin with spellings of one form;
- `Formula.eq_of_render_append`: the spelling shows the formula and its own end, by induction on the formula;
- `Formula.render_eq_iff_of_isWord`: so formulas spelled the same are the same.
-/
import Sequitur.Proofs.Canonical
import Sequitur.Proofs.Delimited

namespace Sequitur

variable {r s : List Char}

/-- a word shows where it ends if no word goes on behind it -/
theorem eq_of_word_append {a b : String} (ha : isWord a = true) (hb : isWord b = true) (hr : WordEnds r)
    (hs : WordEnds s) (h : a.toList ++ r = b.toList ++ s) : a = b ∧ r = s := by
  have hword : a.toList = b.toList := by
    calc a.toList = (a.toList ++ r).takeWhile isWordPart := (takeWhile_word (isWordPart_of_isWord ha) hr).symm
      _ = (b.toList ++ s).takeWhile isWordPart := by rw [h]
      _ = b.toList := takeWhile_word (isWordPart_of_isWord hb) hs
  rw [hword] at h
  exact ⟨String.toList_inj.1 hword, List.append_cancel_left h⟩

/-- connectives differ in their first characters -/
theorem delimited_spelling : Delimited fun op : Connective => op.spelling.toList := by
  intro a b r s h
  have hop : a = b := by
    cases a <;> cases b <;> first | rfl | exact absurd (List.cons.inj h).1 (by decide)
  subst hop
  exact ⟨rfl, List.append_cancel_left h⟩

namespace Formula

/-- the forms that spellings have -/
inductive Form where
  | name
  | negation
  | group

def form : Formula → Form
  | var _ => .name
  | not _ => .negation
  | bin _ _ _ => .group

/-- the form of what begins with a character -/
def formOf (c : Char) : Form := if c = '¬' then .negation else if c = '(' then .group else .name

theorem formOf_of_isWordStart {c : Char} (h : isWordStart c = true) : formOf c = .name := by
  unfold formOf
  split_ifs with hnot hopening
  · subst hnot
    cases h
  · subst hopening
    cases h
  · rfl

/-- a group from its first character on -/
theorem toList_render_bin (op : Connective) (left right : Formula) (rest : List Char) :
    (bin op left right).render.toList ++ rest =
      '(' :: (left.render.toList ++ ' ' :: (op.spelling.toList ++ ' ' :: (right.render.toList ++ ')' :: rest))) := by
  simp [render]

/-- the first character shows the form -/
theorem render_head {f : Formula} (hf : ∀ a ∈ f.occurrences, isWord a = true) (rest : List Char) :
    ∃ c cs, f.render.toList ++ rest = c :: cs ∧ formOf c = f.form := by
  cases f with
  | var a =>
    obtain ⟨c, cs, ha, hc, -⟩ := isWord_iff.1 (hf a (List.mem_singleton.2 rfl))
    exact ⟨c, cs ++ rest, congrArg (· ++ rest) ha, formOf_of_isWordStart hc⟩
  | not f => exact ⟨'¬', f.render.toList ++ rest, by simp [render], rfl⟩
  | bin op left right => exact ⟨_, _, toList_render_bin op left right rest, rfl⟩

theorem form_eq_of_render {f g : Formula} (hf : ∀ a ∈ f.occurrences, isWord a = true)
    (hg : ∀ a ∈ g.occurrences, isWord a = true) (h : f.render.toList ++ r = g.render.toList ++ s) : f.form = g.form := by
  obtain ⟨c, cs, hc, hform⟩ := render_head hf r
  obtain ⟨d, ds, hd, hform'⟩ := render_head hg s
  rw [hc, hd] at h
  rw [← hform, ← hform', (List.cons.inj h).1]

/-- before anything that ends words, the spelling shows the formula and where it ends -/
theorem eq_of_render_append {f g : Formula} (hf : ∀ a ∈ f.occurrences, isWord a = true)
    (hg : ∀ a ∈ g.occurrences, isWord a = true) (hr : WordEnds r) (hs : WordEnds s)
    (h : f.render.toList ++ r = g.render.toList ++ s) : f = g ∧ r = s := by
  induction f generalizing g r s with
  | var a =>
    have hform := form_eq_of_render hf hg h
    cases g <;> cases hform
    case var b =>
      have ha : isWord a = true := hf a (List.mem_singleton.2 rfl)
      have hb : isWord b = true := hg b (List.mem_singleton.2 rfl)
      obtain ⟨rfl, hrs⟩ := eq_of_word_append ha hb hr hs h
      exact ⟨rfl, hrs⟩
  | not f ih =>
    have hform := form_eq_of_render hf hg h
    cases g <;> cases hform
    case not g =>
      simp only [render, String.toList_append, List.append_assoc, List.append_cancel_left_eq] at h
      have hg' : ∀ a ∈ g.occurrences, isWord a = true := hg
      obtain ⟨rfl, hrs⟩ := ih hf hg' hr hs h
      exact ⟨rfl, hrs⟩
  | bin op left right ihl ihr =>
    have hform := form_eq_of_render hf hg h
    cases g <;> cases hform
    case bin op' left' right' =>
      -- behind each operand a character stands that goes on no word, whatever follows the group
      have hblank : ∀ cs : List Char, WordEnds (' ' :: cs) := wordEnds_cons rfl
      have hclosing : ∀ cs : List Char, WordEnds (')' :: cs) := wordEnds_cons rfl
      rw [toList_render_bin, toList_render_bin] at h
      have hinside := (List.cons.inj h).2
      obtain ⟨rfl, hop⟩ := ihl (fun a ha => hf a (List.mem_append_left _ ha))
        (fun a ha => hg a (List.mem_append_left _ ha)) (hblank _) (hblank _) hinside
      obtain ⟨rfl, hright⟩ := delimited_spelling (List.cons.inj hop).2
      obtain ⟨rfl, hend⟩ := ihr (fun a ha => hf a (List.mem_append_right _ ha))
        (fun a ha => hg a (List.mem_append_right _ ha)) (hclosing _) (hclosing _) (List.cons.inj hright).2
      exact ⟨rfl, (List.cons.inj hend).2⟩

/-- **Unique readability.** Formulas whose names are words have one canonical spelling each: two of them are spelled the same
only if they are the same, however tall they are, and also where a name is a keyword. -/
theorem render_eq_iff_of_isWord (f g : Formula) (hf : ∀ a ∈ f.occurrences, isWord a = true)
    (hg : ∀ a ∈ g.occurrences, isWord a = true) : f.render = g.render ↔ f = g := by
  constructor
  · intro h
    have hend : WordEnds [] := nofun
    have htexts : f.render.toList ++ [] = g.render.toList ++ [] := by rw [h]
    exact (eq_of_render_append hf hg hend hend htexts).1
  · rintro rfl
    rfl

/-- a group negated -/
def negatedGroup (n : Nat) : Formula := not (bin .or (negations n) (var "iff"))

/-- a group with its first operand negated -/
def groupOfNegated (n : Nat) : Formula := bin .or (not (negations n)) (var "iff")

/-- beyond the limits of the parser, and with a keyword for a name, the two are told apart by their spellings -/
theorem render_eq_iff_of_isWord_keyword :
    (∀ a ∈ (negatedGroup 2000).occurrences, isWord a = true) ∧
    (∀ a ∈ (groupOfNegated 2000).occurrences, isWord a = true) ∧
      (negatedGroup 2000).render ≠ (groupOfNegated 2000).render := by
  have hwords : ∀ a ∈ ["P_1", "iff"], isWord a = true := by decide
  have hf (n : Nat) : ∀ a ∈ (negatedGroup n).occurrences, isWord a = true := by
    simp only [negatedGroup, occurrences, occurrences_negations]
    exact hwords
  have hg (n : Nat) : ∀ a ∈ (groupOfNegated n).occurrences, isWord a = true := by
    simp only [groupOfNegated, occurrences, occurrences_negations]
    exact hwords
  have hne (n : Nat) : negatedGroup n ≠ groupOfNegated n := nofun
  exact ⟨hf 2000, hg 2000, fun h => hne 2000 ((render_eq_iff_of_isWord _ _ (hf 2000) (hg 2000)).1 h)⟩

/-- a name that is no word can pass for a formula -/
example : (var "(a ∧ b)").render = (bin .and (var "a") (var "b")).render := by decide

end Formula

end Sequitur
