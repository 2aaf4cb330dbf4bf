/-
Spellings that say by themselves where they end.

Where values are written one behind the other, the text can be taken apart again only if each spelling shows its own end.
`Delimited write` says that it does: however two texts go on, if they begin with spellings and are equal, the spellings are
of the same value and the texts go on alike. Spellings are made so in two ways: by a mark behind them that does not occur
in them (`delimited_marked`), and by brackets around a list of delimited spellings (`Delimited.many`).

- `Text.delimited_quoted`, `Text.delimited_quotedList`, `Text.delimited_quotedOption`: quoted texts are delimited, whatever
  characters they are made of, and so are lists of them and the one that may be missing;
- `eq_of_intercalate_eq`: pieces joined by commas come apart again if no comma is in them.
-/
import Sequitur.Text.Quoted

namespace Sequitur

/-- equal texts that begin with a spelling begin with that of the same value and go on alike -/
def Delimited {α : Type} (write : α → List Char) : Prop :=
  ∀ ⦃a b : α⦄ ⦃r s : List Char⦄, write a ++ r = write b ++ s → a = b ∧ r = s

variable {α : Type} {write : α → List Char} {stop : Char} {xs ys r s : List Char}

/-- the text before the first mark, and the text behind it -/
theorem eq_of_append_mark (hx : stop ∉ xs) (hy : stop ∉ ys) (h : xs ++ stop :: r = ys ++ stop :: s) :
    xs = ys ∧ r = s := by
  induction xs generalizing ys with
  | nil =>
    cases ys with
    | nil => exact ⟨rfl, (List.cons.inj h).2⟩
    | cons y ys => exact absurd (List.mem_cons.2 (.inl (List.cons.inj h).1)) hy
  | cons x xs ih =>
    cases ys with
    | nil => exact absurd (List.mem_cons.2 (.inl (List.cons.inj h).1.symm)) hx
    | cons y ys =>
      obtain ⟨rfl, htail⟩ := List.cons.inj h
      obtain ⟨rfl, hr⟩ := ih (List.not_mem_of_not_mem_cons hx) (List.not_mem_of_not_mem_cons hy) htail
      exact ⟨rfl, hr⟩

/-- different spellings without the mark are delimited by it -/
theorem delimited_marked (hinj : ∀ a b, write a = write b → a = b) (hw : ∀ a, stop ∉ write a) :
    Delimited fun a => write a ++ [stop] := by
  intro a b r s h
  simp only [List.append_assoc, List.singleton_append] at h
  obtain ⟨hab, hr⟩ := eq_of_append_mark (hw a) (hw b) h
  exact ⟨hinj a b hab, hr⟩

/-- delimited spellings may stand between any two fixed texts -/
theorem Delimited.between (h : Delimited write) (before after : List Char) :
    Delimited fun a => before ++ write a ++ after := by
  intro a b r s heq
  simp only [List.append_assoc, List.append_cancel_left_eq] at heq
  obtain ⟨hab, hr⟩ := h heq
  exact ⟨hab, List.append_cancel_left hr⟩

/-- a list of delimited spellings, none of which begins with the mark behind them -/
theorem Delimited.many (h : Delimited write) (hw : ∀ a, ∃ c cs, write a = c :: cs ∧ c ≠ stop) :
    Delimited fun l : List α => l.flatMap write ++ [stop] := by
  intro l m r s heq
  simp only [List.append_assoc, List.singleton_append] at heq
  induction l generalizing m with
  | nil =>
    cases m with
    | nil => exact ⟨rfl, (List.cons.inj heq).2⟩
    | cons b m =>
      obtain ⟨c, cs, hb, hc⟩ := hw b
      rw [List.flatMap_cons, hb] at heq
      exact absurd (List.cons.inj heq).1.symm hc
  | cons a l ih =>
    cases m with
    | nil =>
      obtain ⟨c, cs, ha, hc⟩ := hw a
      rw [List.flatMap_cons, ha] at heq
      exact absurd (List.cons.inj heq).1 hc
    | cons b m =>
      simp only [List.flatMap_cons, List.append_assoc] at heq
      obtain ⟨rfl, htail⟩ := h heq
      obtain ⟨rfl, hr⟩ := ih htail
      exact ⟨rfl, hr⟩

/-! ## Pieces between commas -/

/-- what stands behind a piece is nothing or begins with the comma -/
theorem eq_of_append_pieces (hx : ',' ∉ xs) (hy : ',' ∉ ys) (hr : ∀ c ∈ r.head?, c = ',') (hs : ∀ c ∈ s.head?, c = ',')
    (h : xs ++ r = ys ++ s) : xs = ys ∧ r = s := by
  have htake : ∀ {zs t : List Char}, ',' ∉ zs → (∀ c ∈ t.head?, c = ',') →
      (zs ++ t).takeWhile (fun c => c != ',') = zs := by
    intro zs t hz ht
    have hz' : ∀ c ∈ zs, (c != ',') = true := by
      intro c hc
      rw [bne_iff_ne]
      rintro rfl
      exact hz hc
    rw [List.takeWhile_append_of_pos hz']
    cases t with
    | nil => simp
    | cons c t => simp [ht c rfl]
  have hxy : xs = ys := by rw [← htake hx hr, h, htake hy hs]
  subst hxy
  exact ⟨rfl, List.append_cancel_left h⟩

theorem intercalate_cons (sep x : List Char) (l : List (List Char)) :
    sep.intercalate (x :: l) = x ++ l.flatMap fun y => sep ++ y := by
  induction l generalizing x with
  | nil => simp
  | cons y l ih => rw [List.intercalate_cons_cons, ih, List.flatMap_cons, List.append_assoc, List.append_assoc]

/-- what stands in joined pieces is of the separator or of a piece -/
theorem mem_of_mem_intercalate {sep : List Char} {l : List (List Char)} {c : Char} (h : c ∈ sep.intercalate l)
    (hsep : c ∉ sep) : ∃ x ∈ l, c ∈ x := by
  cases l with
  | nil => cases h
  | cons x l =>
    rw [intercalate_cons, List.mem_append, List.mem_flatMap] at h
    rcases h with h | ⟨y, hy, h⟩
    · exact ⟨x, List.mem_cons_self, h⟩
    · exact ⟨y, List.mem_cons_of_mem _ hy, (List.mem_append.1 h).resolve_left hsep⟩

/-- pieces that are not empty and hold no comma -/
def Pieces (l : List (List Char)) : Prop := ∀ x ∈ l, x ≠ [] ∧ ',' ∉ x

theorem eq_of_flatMap_pieces {l m : List (List Char)} (hl : Pieces l) (hm : Pieces m)
    (h : (l.flatMap fun x => [',', ' '] ++ x) = m.flatMap fun x => [',', ' '] ++ x) : l = m := by
  have starts (k : List (List Char)) : ∀ c ∈ (k.flatMap fun x => [',', ' '] ++ x).head?, c = ',' := by
    cases k with
    | nil => simp
    | cons x k => simp
  induction l generalizing m with
  | nil =>
    cases m with
    | nil => rfl
    | cons y m => cases h
  | cons x l ih =>
    cases m with
    | nil => cases h
    | cons y m =>
      simp only [List.flatMap_cons, List.append_assoc, List.append_cancel_left_eq] at h
      obtain ⟨rfl, htail⟩ := eq_of_append_pieces (hl x List.mem_cons_self).2 (hm y List.mem_cons_self).2 (starts l)
        (starts m) h
      rw [ih (fun z hz => hl z (List.mem_cons_of_mem _ hz)) (fun z hz => hm z (List.mem_cons_of_mem _ hz)) htail]

theorem eq_of_intercalate_eq {l m : List (List Char)} (hl : Pieces l) (hm : Pieces m)
    (h : [',', ' '].intercalate l = [',', ' '].intercalate m) : l = m := by
  have behind {x : List Char} {k : List (List Char)} (hk : Pieces (x :: k)) :
      [',', ' '].intercalate (x :: k) ≠ [] := by
    rw [intercalate_cons]
    exact List.append_ne_nil_of_left_ne_nil (hk x List.mem_cons_self).1 _
  cases l with
  | nil =>
    cases m with
    | nil => rfl
    | cons y m => exact absurd h.symm (behind hm)
  | cons x l =>
    cases m with
    | nil => exact absurd h (behind hl)
    | cons y m =>
      apply eq_of_flatMap_pieces hl hm
      rw [List.flatMap_cons, List.flatMap_cons, List.append_assoc, List.append_assoc, ← intercalate_cons,
        ← intercalate_cons, h]

/-! ## Numbers -/

/-- a number is read off its decimal digits -/
theorem toDigits_decimal_inj {m n : Nat} (h : Nat.toDigits 10 m = Nat.toDigits 10 n) : m = n := by
  have hvalue (k : Nat) : Nat.ofDigitChars 10 (Nat.toDigits 10 k) 0 = k :=
    Nat.ofDigitChars_toDigits (by decide) (by decide)
  calc
    m = Nat.ofDigitChars 10 (Nat.toDigits 10 m) 0 := (hvalue m).symm
    _ = Nat.ofDigitChars 10 (Nat.toDigits 10 n) 0 := by rw [h]
    _ = n := hvalue n

/-- all other characters can mark where it ends -/
theorem not_mem_toDigits_decimal {c : Char} (hc : c.isDigit = false) (n : Nat) : c ∉ Nat.toDigits 10 n := by
  intro hmem
  rw [Nat.isDigit_of_mem_toDigits (by decide) (by decide) hmem] at hc
  cases hc

/-! ## Quoted texts -/

/-- a code point is read off its hexadecimal digits -/
theorem toDigits_hex_inj {m n : Nat} (h : Nat.toDigits 16 m = Nat.toDigits 16 n) : m = n := by
  have hdigit : ∀ a < 16, ∀ b < 16, a.digitChar = b.digitChar → a = b := by decide
  induction m using Nat.strongRecOn generalizing n with
  | _ m ih =>
    rw [Nat.toDigits_eq_if (by decide), Nat.toDigits_eq_if (n := n) (by decide)] at h
    split at h
    · rename_i hm
      split at h
      · rename_i hn
        exact hdigit m hm n hn (List.cons.inj h).1
      · have hlen := congrArg List.length h
        have hpos := @Nat.length_toDigits_pos 16 (n / 16)
        simp only [List.length_append, List.length_singleton] at hlen
        omega
    · rename_i hm
      split at h
      · have hlen := congrArg List.length h
        have hpos := @Nat.length_toDigits_pos 16 (m / 16)
        simp only [List.length_append, List.length_singleton] at hlen
        omega
      · obtain ⟨hinit, hlast⟩ := List.append_inj' h rfl
        have hdiv : m / 16 = n / 16 := ih (m / 16) (by omega) hinit
        have hmod : m % 16 = n % 16 := hdigit _ (by omega) _ (by omega) (List.cons.inj hlast).1
        omega

theorem digitChar_of_mem_toDigits_hex {n : Nat} {c : Char} (h : c ∈ Nat.toDigits 16 n) :
    ∃ d < 16, c = d.digitChar := by
  induction n using Nat.strongRecOn with
  | _ n ih =>
    rw [Nat.toDigits_eq_if (by decide)] at h
    split at h
    · rename_i hn
      exact ⟨n, hn, List.mem_singleton.1 h⟩
    · rcases List.mem_append.1 h with h | h
      · exact ih (n / 16) (by omega) h
      · exact ⟨n % 16, by omega, List.mem_singleton.1 h⟩

namespace Text

/-- the character that a backslash and a letter stand for -/
def shortcut : Char → Option Char
  | '"' => some '"'
  | '\\' => some '\\'
  | 'n' => some '\n'
  | 'r' => some '\r'
  | 't' => some '\t'
  | '0' => some '\x00'
  | _ => none

/-- the three ways in which a character is written between quotes -/
inductive Shown (c : Char) : List Char → Prop where
  | short {e : Char} : shortcut e = some c → Shown c ['\\', e]
  | code : Shown c (codePointEscape c)
  | plain : c ≠ '"' → c ≠ '\\' → Shown c [c]

theorem shown_showChar (c : Char) : Shown c (showChar c) := by
  unfold showChar
  split
  · rename_i h
    exact .short (by rw [h]; rfl)
  split
  · rename_i h
    exact .short (by rw [h]; rfl)
  split
  · rename_i h
    exact .short (by rw [h]; rfl)
  split
  · rename_i h
    exact .short (by rw [h]; rfl)
  split
  · rename_i h
    exact .short (by rw [h]; rfl)
  split
  · rename_i h
    exact .short (by rw [h]; rfl)
  split
  · exact .code
  · rename_i hquote hslash _ _ _ _ _
    exact .plain hquote hslash

/-- no written character begins with a quote -/
theorem Shown.starts {c : Char} {cs : List Char} (h : Shown c cs) : ∃ d ds, cs = d :: ds ∧ d ≠ '"' := by
  cases h with
  | short _ => exact ⟨_, _, rfl, by decide⟩
  | code => exact ⟨_, _, rfl, by decide⟩
  | plain hquote _ => exact ⟨_, _, rfl, hquote⟩

theorem delimited_codePointEscape : Delimited codePointEscape := by
  have hbrace : ∀ n, '\x7d' ∉ Nat.toDigits 16 n := by
    intro n h
    obtain ⟨d, hd, hc⟩ := digitChar_of_mem_toDigits_hex h
    have hne : ∀ d < 16, '\x7d' ≠ d.digitChar := by decide
    exact hne d hd hc
  have hdigits : Delimited fun c : Char => Nat.toDigits 16 c.toNat ++ ['\x7d'] :=
    delimited_marked (fun c d h => Char.toNat_inj.1 (toDigits_hex_inj h)) fun c => hbrace c.toNat
  intro c d r s h
  exact hdigits (List.cons.inj (List.cons.inj (List.cons.inj h).2).2).2

theorem delimited_showChar : Delimited showChar := by
  intro c d r s h
  have hshort : ∀ e, 'u' = e → shortcut e = none := by
    rintro e rfl
    rfl
  have hc := shown_showChar c
  have hd := shown_showChar d
  generalize showChar c = xs at h hc
  generalize showChar d = ys at h hd
  cases hc with
  | short he =>
    cases hd with
    | short he' =>
      obtain ⟨rfl, hr⟩ := List.cons.inj (List.cons.inj h).2
      exact ⟨Option.some.inj (he.symm.trans he'), hr⟩
    | code =>
      have hu := (List.cons.inj (List.cons.inj h).2).1
      rw [hshort _ hu.symm] at he
      cases he
    | plain _ hslash => exact absurd (List.cons.inj h).1.symm hslash
  | code =>
    cases hd with
    | short he =>
      have hu := (List.cons.inj (List.cons.inj h).2).1
      rw [hshort _ hu] at he
      cases he
    | code => exact delimited_codePointEscape h
    | plain _ hslash => exact absurd (List.cons.inj h).1.symm hslash
  | plain _ hslash =>
    cases hd with
    | short _ => exact absurd (List.cons.inj h).1 hslash
    | code => exact absurd (List.cons.inj h).1 hslash
    | plain _ _ => exact List.cons.inj h

theorem delimited_quoted : Delimited quoted := by
  have hmany : Delimited fun cs : List Char => cs.flatMap showChar ++ ['"'] :=
    delimited_showChar.many fun c => (shown_showChar c).starts
  intro a b r s h
  obtain ⟨hab, hr⟩ := hmany (List.cons.inj h).2
  exact ⟨String.toList_inj.1 hab, hr⟩

theorem quotedList_cons (x : String) (l : List String) :
    quotedList (x :: l) = '[' :: (quoted x ++ ((l.flatMap fun y => [',', ' '] ++ quoted y) ++ [']'])) := by
  simp [quotedList, intercalate_cons, List.flatMap_map]

theorem delimited_quotedList : Delimited quotedList := by
  -- behind the first text, each further one stands after a comma, and the bracket is none
  have hmany : Delimited fun l : List String => (l.flatMap fun y => [',', ' '] ++ quoted y) ++ [']'] := by
    have hitem : Delimited fun y : String => [',', ' '] ++ quoted y := by
      intro a b r s h
      exact delimited_quoted (List.cons.inj (List.cons.inj h).2).2
    exact hitem.many fun y => ⟨',', _, rfl, by decide⟩
  intro l m r s h
  cases l with
  | nil =>
    cases m with
    | nil => exact ⟨rfl, (List.cons.inj (List.cons.inj h).2).2⟩
    | cons y m =>
      rw [quotedList_cons] at h
      exact absurd (List.cons.inj (List.cons.inj h).2).1 (by decide)
  | cons x l =>
    cases m with
    | nil =>
      rw [quotedList_cons] at h
      exact absurd (List.cons.inj (List.cons.inj h).2).1 (by decide)
    | cons y m =>
      simp only [quotedList_cons, List.cons_append, List.append_assoc, List.cons.injEq, true_and] at h
      obtain ⟨rfl, htail⟩ := delimited_quoted h
      obtain ⟨rfl, hr⟩ := hmany (by simpa using htail)
      exact ⟨rfl, hr⟩

theorem delimited_quotedOption : Delimited quotedOption := by
  intro o p r s h
  cases o with
  | none =>
    cases p with
    | none =>
      have hnone : ['N', 'o', 'n', 'e'] ++ r = ['N', 'o', 'n', 'e'] ++ s := h
      exact ⟨rfl, List.append_cancel_left hnone⟩
    | some y => exact absurd (List.cons.inj h).1 (by decide)
  | some x =>
    cases p with
    | none => exact absurd (List.cons.inj h).1 (by decide)
    | some y =>
      obtain ⟨rfl, hr⟩ := delimited_quoted.between ['S', 'o', 'm', 'e', '('] [')'] h
      exact ⟨rfl, hr⟩

end Text

end Sequitur
