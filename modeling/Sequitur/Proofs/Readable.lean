/-
JSON texts have one reading.

A value is spelled in seven forms, which differ in their first character. Inside a form, a spelling shows where it ends: a
text at its quote, a list or an object at its bracket, the words by their length. Only numbers need what comes after them,
and behind a value there is nothing, a comma or a closing bracket (`Follows`). So of two equal texts that begin with values
the values are the same, and what comes after them; numbers may be of any length here.

- `Readable`: what it is for a spelling to show its value and its end;
- `readable_chars`: all values without foreign parts do, by induction on the value;
- `render_inj`: they are the same if they are written the same.
-/
import Sequitur.Json.RoundTrip
import Sequitur.Proofs.Delimited

namespace Sequitur.Json

/-- a value without foreign parts -/
inductive Definite : Json → Prop where
  | null : Definite null
  | bool (b : Bool) : Definite (bool b)
  | nat (n : Nat) : Definite (nat n)
  | str (s : String) : Definite (str s)
  | arr {items : List Json} : (∀ v ∈ items, Definite v) → Definite (arr items)
  | obj {fields : List (String × Json)} : (∀ f ∈ fields, Definite f.2) → Definite (obj fields)

/-! ## Forms -/

/-- the forms that spellings have -/
inductive Form where
  | null
  | bool (b : Bool)
  | nat
  | str
  | arr
  | obj

/-- the form of what begins with a character -/
def formOf (c : Char) : Option Form :=
  if c = 'n' then some .null
  else if c = 't' then some (.bool true)
  else if c = 'f' then some (.bool false)
  else if c = '"' then some .str
  else if c = '[' then some .arr
  else if c = '\x7b' then some .obj
  else if c.isDigit then some .nat
  else none

def form : Json → Form
  | null | foreign => .null
  | bool b => .bool b
  | nat _ => .nat
  | str _ => .str
  | arr _ => .arr
  | obj _ => .obj

theorem formOf_of_isDigit {c : Char} (h : c.isDigit = true) : formOf c = some .nat := by
  have hne : ∀ d : Char, d.isDigit = false → c ≠ d := by
    rintro d hd rfl
    rw [h] at hd
    cases hd
  rw [formOf, if_neg (hne _ rfl), if_neg (hne _ rfl), if_neg (hne _ rfl), if_neg (hne _ rfl), if_neg (hne _ rfl),
    if_neg (hne _ rfl), if_pos h]

/-- the first character shows the form -/
theorem chars_form (v : Json) : ∃ c cs, v.chars = c :: cs ∧ formOf c = some v.form := by
  cases v with
  | bool b => cases b <;> exact ⟨_, _, rfl, rfl⟩
  | nat n =>
    obtain ⟨c, cs, hn, hc, -⟩ := toDigits_cons n
    exact ⟨c, cs, hn, formOf_of_isDigit hc⟩
  | _ => exact ⟨_, _, rfl, rfl⟩

theorem form_eq_of_chars {v w : Json} {r s : List Char} (h : v.chars ++ r = w.chars ++ s) : v.form = w.form := by
  obtain ⟨c, cs, hv, hc⟩ := v.chars_form
  obtain ⟨d, ds, hw, hd⟩ := w.chars_form
  rw [hv, hw] at h
  rw [(List.cons.inj h).1, hd] at hc
  exact (Option.some.inj hc).symm

/-- values of one form, the second without foreign parts -/
inductive SameForm : Json → Json → Prop where
  | null : SameForm null null
  | bool (b : Bool) : SameForm (bool b) (bool b)
  | nat (m n : Nat) : SameForm (nat m) (nat n)
  | str (s t : String) : SameForm (str s) (str t)
  | arr (vs : List Json) {ws : List Json} : (∀ w ∈ ws, Definite w) → SameForm (arr vs) (arr ws)
  | obj (fs : List (String × Json)) {gs : List (String × Json)} : (∀ g ∈ gs, Definite g.2) → SameForm (obj fs) (obj gs)

theorem sameForm_of_chars {v w : Json} {r s : List Char} (hv : Definite v) (hw : Definite w)
    (h : v.chars ++ r = w.chars ++ s) : SameForm v w := by
  have hform := form_eq_of_chars h
  cases hv <;> cases hw <;> cases hform
  case null.null => exact .null
  case bool.bool => exact .bool _
  case nat.nat => exact .nat _ _
  case str.str => exact .str _ _
  case arr.arr hws => exact .arr _ hws
  case obj.obj hgs => exact .obj _ hgs

/-! ## Parts -/

/-- a quoted text shows where it ends -/
theorem delimited_quoted : Delimited fun s : String => quoted s.toList := by
  intro a b r s h
  simp only [quoted, List.cons_append, List.append_assoc, List.nil_append, List.cons.injEq, true_and] at h
  have ha := text_written a r
  rw [h, text_written b s] at ha
  cases ha
  exact ⟨rfl, rfl⟩

/-- a number shows where it ends before what may follow it -/
theorem eq_of_toDigits {m n : Nat} {r s : List Char} (hr : Follows r) (hs : Follows s)
    (h : Nat.toDigits 10 m ++ r = Nat.toDigits 10 n ++ s) : m = n ∧ r = s := by
  have hdigits : ∀ k, ∀ d ∈ Nat.toDigits 10 k, d.isDigit = true :=
    fun k d hd => Nat.isDigit_of_mem_toDigits (by decide) (by decide) hd
  obtain ⟨hm, hrest⟩ := span_digits (hdigits m) hr
  obtain ⟨hn, hrest'⟩ := span_digits (hdigits n) hs
  rw [h] at hm hrest
  exact ⟨toDigits_decimal_inj (hm.symm.trans hn), hrest.symm.trans hrest'⟩

section Lists

variable {α : Type} {write : α → List Char} {ok : α → Prop} {stop : Char} {r s : List Char}

/-- before anything that may follow a value, the spelling shows what it is of and where it ends -/
def Readable (write : α → List Char) (ok : α → Prop) (a : α) : Prop :=
  ∀ ⦃b : α⦄ ⦃r s : List Char⦄, ok b → Follows r → Follows s → write a ++ r = write b ++ s → a = b ∧ r = s

theorem commas_cons (x : List Char) (l : List (List Char)) : commas (x :: l) = x ++ l.flatMap fun y => ',' :: y := by
  induction l generalizing x with
  | nil => rw [commas, List.flatMap_nil, List.append_nil]
  | cons y l ih => rw [commas, ih, List.flatMap_cons, List.cons_append]

theorem follows_rest (hstop : stop = ']' ∨ stop = '\x7d') (l : List α) (r : List Char) :
    Follows ((l.flatMap fun a => ',' :: write a) ++ stop :: r) := by
  cases l with
  | nil => exact follows_cons (.inr hstop) r
  | cons a l => exact follows_cons (.inl rfl) _

/-- what stands behind the first item, each item after a comma -/
theorem eq_of_rest (hstop : stop = ']' ∨ stop = '\x7d') {l m : List α} (hl : ∀ a ∈ l, Readable write ok a)
    (hm : ∀ b ∈ m, ok b)
    (h : (l.flatMap fun a => ',' :: write a) ++ stop :: r = (m.flatMap fun a => ',' :: write a) ++ stop :: s) :
    l = m ∧ r = s := by
  have hcomma : stop ≠ ',' := by rcases hstop with rfl | rfl <;> decide
  induction l generalizing m with
  | nil =>
    cases m with
    | nil => exact ⟨rfl, (List.cons.inj h).2⟩
    | cons b m => exact absurd (List.cons.inj h).1 hcomma
  | cons a l ih =>
    cases m with
    | nil => exact absurd (List.cons.inj h).1.symm hcomma
    | cons b m =>
      simp only [List.flatMap_cons, List.cons_append, List.append_assoc, List.cons.injEq, true_and] at h
      obtain ⟨rfl, hrest⟩ := hl a List.mem_cons_self (hm b List.mem_cons_self) (follows_rest hstop l r)
        (follows_rest hstop m s) h
      obtain ⟨rfl, hrs⟩ := ih (fun c hc => hl c (List.mem_cons_of_mem _ hc))
        (fun c hc => hm c (List.mem_cons_of_mem _ hc)) hrest
      exact ⟨rfl, hrs⟩

/-- items with commas between them, up to the bracket behind them -/
theorem eq_of_commas (hstop : stop = ']' ∨ stop = '\x7d') (hstart : ∀ a, ∃ c cs, write a = c :: cs ∧ c ≠ stop)
    {l m : List α} (hl : ∀ a ∈ l, Readable write ok a) (hm : ∀ b ∈ m, ok b)
    (h : commas (l.map write) ++ stop :: r = commas (m.map write) ++ stop :: s) : l = m ∧ r = s := by
  cases l with
  | nil =>
    cases m with
    | nil => exact ⟨rfl, (List.cons.inj h).2⟩
    | cons b m =>
      obtain ⟨c, cs, hb, hc⟩ := hstart b
      rw [List.map_cons, commas_cons, hb] at h
      exact absurd (List.cons.inj h).1.symm hc
  | cons a l =>
    cases m with
    | nil =>
      obtain ⟨c, cs, ha, hc⟩ := hstart a
      rw [List.map_cons, commas_cons, ha] at h
      exact absurd (List.cons.inj h).1 hc
    | cons b m =>
      simp only [List.map_cons, commas_cons, List.flatMap_map, List.append_assoc] at h
      obtain ⟨rfl, hrest⟩ := hl a List.mem_cons_self (hm b List.mem_cons_self) (follows_rest hstop l r)
        (follows_rest hstop m s) h
      obtain ⟨rfl, hrs⟩ := eq_of_rest hstop (fun c hc => hl c (List.mem_cons_of_mem _ hc))
        (fun c hc => hm c (List.mem_cons_of_mem _ hc)) hrest
      exact ⟨rfl, hrs⟩

end Lists

/-! ## Values -/

theorem itemChars_eq (vs : List Json) : itemChars vs = vs.map chars := by
  induction vs with
  | nil => rfl
  | cons v vs ih => rw [itemChars, ih, List.map_cons]

/-- a field as it is written -/
def fieldText (f : String × Json) : List Char := quoted f.1.toList ++ ':' :: f.2.chars

theorem fieldChars_eq (fs : List (String × Json)) : fieldChars fs = fs.map fieldText := by
  induction fs with
  | nil => rfl
  | cons f fs ih => rw [fieldChars, ih, List.map_cons, fieldText]

theorem readable_fieldText {f : String × Json} (h : Readable chars Definite f.2) :
    Readable fieldText (fun g => Definite g.2) f := by
  intro g r s hg hr hs heq
  simp only [fieldText, List.append_assoc, List.cons_append] at heq
  obtain ⟨hkey, hvalue⟩ := delimited_quoted heq
  obtain ⟨hv, hrs⟩ := h hg hr hs (List.cons.inj hvalue).2
  exact ⟨Prod.ext hkey hv, hrs⟩

theorem chars_start (v : Json) : ∃ c cs, v.chars = c :: cs ∧ c ≠ ']' := by
  obtain ⟨c, cs, hv, hc⟩ := v.chars_form
  refine ⟨c, cs, hv, ?_⟩
  rintro rfl
  cases hc

/-- values without foreign parts show themselves and their ends -/
theorem readable_chars {v : Json} (hv : Definite v) : Readable chars Definite v := by
  -- in each case the first character leaves one form for the other value
  induction hv with
  | null =>
    intro w r s hw _ _ h
    cases sameForm_of_chars .null hw h
    exact ⟨rfl, List.append_cancel_left h⟩
  | bool b =>
    intro w r s hw _ _ h
    cases sameForm_of_chars (.bool b) hw h
    exact ⟨rfl, List.append_cancel_left h⟩
  | nat n =>
    intro w r s hw hr hs h
    cases sameForm_of_chars (.nat n) hw h
    obtain ⟨rfl, hrs⟩ := eq_of_toDigits hr hs h
    exact ⟨rfl, hrs⟩
  | str t =>
    intro w r s hw _ _ h
    cases sameForm_of_chars (.str t) hw h
    obtain ⟨rfl, hrs⟩ := delimited_quoted h
    exact ⟨rfl, hrs⟩
  | @arr items hitems ih =>
    intro w r s hw _ _ h
    cases sameForm_of_chars (.arr hitems) hw h with
    | arr _ hws =>
      simp only [chars, itemChars_eq, List.cons_append, List.append_assoc, List.nil_append, List.cons.injEq, true_and] at h
      obtain ⟨rfl, hrs⟩ := eq_of_commas (.inl rfl) chars_start ih hws h
      exact ⟨rfl, hrs⟩
  | @obj fields hfields ih =>
    intro w r s hw _ _ h
    cases sameForm_of_chars (.obj hfields) hw h with
    | obj _ hgs =>
      simp only [chars, fieldChars_eq, List.cons_append, List.append_assoc, List.nil_append, List.cons.injEq, true_and] at h
      obtain ⟨rfl, hrs⟩ := eq_of_commas (.inr rfl) (fun _ => ⟨_, _, rfl, by decide⟩)
        (fun f hf => readable_fieldText (ih f hf)) hgs h
      exact ⟨rfl, hrs⟩

/-- values without foreign parts are written the same only if they are the same -/
theorem render_inj {v w : Json} (hv : Definite v) (hw : Definite w) (h : v.render = w.render) : v = w := by
  rw [render_eq, render_eq] at h
  have hchars : v.chars ++ [] = w.chars ++ [] := by
    rw [List.append_nil, List.append_nil]
    exact String.ofList_injective h
  have hend : Follows [] := nofun
  exact (readable_chars hv hw hend hend hchars).1

end Sequitur.Json
