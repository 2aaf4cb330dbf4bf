/-
Written instants read back.

Main statements: `Instant.read?_render`, and `Instant.eq_of_bareChars_eq`: two instants with the same spelling are
equal, leap seconds, signed years and short fractions included.
-/
import Sequitur.Instant.Printer
import Sequitur.Instant.Reader

namespace Sequitur

open Text

/-! ## padded numbers -/

theorem length_padded {w n : Nat} (h : (Nat.toDigits 10 n).length ≤ w) : (padded w n).length = w := by
  simp only [padded, List.length_append, List.length_replicate]
  omega

theorem length_padded_two {n : Nat} (h : n < 100) : (padded 2 n).length = 2 :=
  length_padded ((Nat.length_toDigits_le_iff (by decide) (by decide)).2 h)

theorem padded_ne_nil (w n : Nat) : padded w n ≠ [] := by
  simp [padded, Nat.toDigits_ne_nil]

theorem isDigit_padded {w n : Nat} {c : Char} (h : c ∈ padded w n) : c.isDigit = true := by
  rcases List.mem_append.1 h with h | h
  · rw [(List.mem_replicate.1 h).2]
    decide
  · exact Nat.isDigit_of_mem_toDigits (by decide) (by decide) h

theorem decimal?_padded (w : Nat) {n : Nat} (h : n < 1000000000) : decimal? 9 (padded w n) = some n :=
  decimal?_toDigits ((Nat.length_toDigits_le_iff (by decide) (by decide)).2 h) _

theorem value_padded (w n : Nat) : Nat.ofDigitChars 10 (padded w n) 0 = n := by
  rw [padded, Nat.ofDigitChars_append, Nat.ofDigitChars_replicate_zero, Nat.mul_zero,
    Nat.ofDigitChars_toDigits (by decide) (by decide)]

theorem isBlank_of_isDigit {c : Char} (h : c.isDigit = true) : isBlank c = false := by
  simp only [Char.isDigit, Bool.and_eq_true, decide_eq_true_eq] at h
  have h₁ : 48 ≤ c.toNat := h.1
  have h₂ : c.toNat ≤ 57 := h.2
  simp only [isBlank, Bool.or_eq_false_iff, Bool.and_eq_false_iff, decide_eq_false_iff_not, beq_eq_false_iff_ne]
  omega

namespace InstantReader

theorem takeWhile_isDigit {ds : List Char} (h : ∀ c ∈ ds, c.isDigit = true) (rest : List Char) :
    (ds ++ rest).takeWhile Char.isDigit = ds ++ rest.takeWhile Char.isDigit := List.takeWhile_append_of_pos h

/-- digits that fill the width, or that something else follows -/
theorem digits_append {w : Nat} {ds r : List Char} (hd : ∀ c ∈ ds, c.isDigit = true) (hn : ds ≠ [])
    (hl : ds.length ≤ w) (hr : ds.length = w ∨ ∀ c ∈ r.head?, c.isDigit = false) :
    digits w (ds ++ r) = (decimal? 9 ds).map fun n => (n, r) := by
  have ht : ((ds ++ r).take w).takeWhile Char.isDigit = ds := by
    rw [List.take_append, List.take_of_length_le hl, takeWhile_isDigit hd]
    rcases hr with hr | hr
    · simp [hr]
    · cases r with
      | nil => simp
      | cons c cs =>
        have hc : c.isDigit = false := hr c (by simp)
        cases h : w - ds.length <;> simp [hc]
  simp [digits, ht, hn]

theorem skipBlanks_append {ds r : List Char} (hd : ∀ c ∈ ds, c.isDigit = true) (hn : ds ≠ []) :
    skipBlanks (ds ++ r) = ds ++ r := by
  cases ds with
  | nil => exact absurd rfl hn
  | cons c cs => simp [skipBlanks, isBlank_of_isDigit (hd c (by simp))]

/-- a number of two digits -/
theorem number_padded {n : Nat} (h : n < 100) (rest : List Char) : number 2 (padded 2 n ++ rest) = some (n, rest) := by
  have hl := length_padded_two h
  rw [number, skipBlanks_append (fun _ => isDigit_padded) (padded_ne_nil 2 n),
    digits_append (fun _ => isDigit_padded) (padded_ne_nil 2 n) (by omega) (.inl hl), decimal?_padded 2 (by omega),
    Option.map_some]

theorem mark_cons {c : Char} (h : isBlank c = false) (rest : List Char) : mark c (c :: rest) = some rest := by
  simp [mark, skipBlanks, h]

theorem year_yearChars {y : Int} (hy : y.natAbs < 1000000000) (rest : List Char) :
    year (yearChars y ++ '-' :: rest) = some (y, '-' :: rest) := by
  have signed (w : Nat) : digits (padded 4 y.natAbs ++ '-' :: rest).length (padded 4 y.natAbs ++ '-' :: rest) =
      some (y.natAbs, '-' :: rest) := by
    rw [digits_append (fun _ => isDigit_padded) (padded_ne_nil 4 _) (by simp) (.inr (by simp)), decimal?_padded 4 hy,
      Option.map_some]
  unfold yearChars
  split
  · simp only [List.cons_append, year, skipBlanks, List.dropWhile_cons, show isBlank '-' = false from rfl,
      Bool.false_eq_true, ↓reduceIte, signed 0, Option.map_some, Option.some.injEq, Prod.mk.injEq, and_true]
    omega
  · split
    · simp only [List.cons_append, year, skipBlanks, List.dropWhile_cons, show isBlank '+' = false from rfl,
        Bool.false_eq_true, ↓reduceIte, signed 0, Option.map_some, Option.some.injEq, Prod.mk.injEq, and_true]
      omega
    · have hl := length_padded (w := 4) (n := y.natAbs)
        ((Nat.length_toDigits_le_iff (by decide) (by decide)).2 (by omega))
      have hd := digits_append (w := 4) (r := '-' :: rest) (fun _ => isDigit_padded) (padded_ne_nil 4 y.natAbs)
        (by omega) (.inl hl)
      have hs := skipBlanks_append (r := '-' :: rest) (fun _ => isDigit_padded) (padded_ne_nil 4 y.natAbs)
      rw [decimal?_padded 4 hy, Option.map_some] at hd
      cases hp : padded 4 y.natAbs with
      | nil => exact absurd hp (padded_ne_nil 4 _)
      | cons c cs =>
        have hc : c.isDigit = true := isDigit_padded (w := 4) (n := y.natAbs) (by simp [hp])
        rw [hp] at hd hs
        rw [year, hs]
        split
        · rename_i h
          cases h
          exact absurd hc (by decide)
        · rename_i h
          cases h
          exact absurd hc (by decide)
        · rw [hd]
          simp only [Option.map_some, Option.some.injEq, Prod.mk.injEq, and_true]
          omega

theorem calendarDate_chars (t : Date) (rest : List Char) :
    calendarDate (t.chars ++ 'T' :: rest) = some (t, 'T' :: rest) := by
  have hy : t.year.natAbs < 1000000000 := by have := t.year_ge; have := t.year_le; omega
  have hm : t.month < 100 := by have := t.month_le; omega
  have hd : t.day < 100 := by
    have h := t.day_le
    have : daysInMonth t.year t.month ≤ 31 := by
      unfold daysInMonth
      repeat' split
      all_goals omega
    omega
  simp only [Date.chars, List.append_assoc, List.cons_append]
  simp [calendarDate, year_yearChars hy, mark_cons (c := '-') rfl, number_padded hm, number_padded hd, t.of?_self]

theorem fraction_fractionChars {n : Nat} (h : n < 1000000000) {c : Char} (hc : c.isDigit = false) (hp : c ≠ '.')
    (rest : List Char) : fraction (fractionChars n ++ c :: rest) = some (n, c :: rest) := by
  have point {w k : Nat} (hw : 0 < w) (hw' : w ≤ 9) (hk : k < 10 ^ w) :
      fraction ('.' :: padded w k ++ c :: rest) = some (10 ^ (9 - w) * k, c :: rest) := by
    have hl := length_padded ((Nat.length_toDigits_le_iff (by decide) hw).2 hk)
    have hd := digits_append (w := 9) (r := c :: rest) (fun _ => isDigit_padded) (padded_ne_nil w k)
      (by omega) (.inr (by simp [hc]))
    have ht : ((padded w k ++ c :: rest).take 9).takeWhile Char.isDigit = padded w k := by
      rw [List.take_append, List.take_of_length_le (by omega), takeWhile_isDigit (fun _ => isDigit_padded), hl]
      cases h : 9 - w <;> simp [hc]
    have hr : (padded w k ++ c :: rest).dropWhile Char.isDigit = c :: rest := by
      rw [List.dropWhile_append_of_pos (fun _ => isDigit_padded)]
      simp [hc]
    simp only [List.cons_append, fraction, ht, padded_ne_nil, ↓reduceIte, Nat.ofDigitChars_append, value_padded, hl,
      Nat.ofDigitChars_replicate_zero, hr]
  unfold fractionChars
  split
  · subst_vars
    simp only [List.nil_append]
    unfold fraction
    split
    · rename_i he
      cases he
      exact absurd rfl hp
    · rfl
  · split
    · rw [point (by decide) (by decide) (by omega)]
      simp only [Option.some.injEq, Prod.mk.injEq, and_true]
      omega
    · split
      · rw [point (by decide) (by decide) (by omega)]
        simp only [Option.some.injEq, Prod.mk.injEq, and_true]
        omega
      · rw [point (by decide) (by decide) h]
        simp

theorem separator_T (rest : List Char) : separator ('T' :: rest) = some rest := rfl

theorem zone_Z : zone (skipBlanks ['Z']) = some (0, []) := rfl

end InstantReader

namespace Instant

open InstantReader

theorem minus?_zero (t : Instant) : t.minus? 0 = some t := by
  have hh := t.hour_lt
  have hm := t.minute_lt
  have h₁ : ¬((t.hour : Int) * 60 + t.minute - 0 < 0) := by omega
  have h₂ : ¬(1440 ≤ (t.hour : Int) * 60 + t.minute - 0) := by omega
  have h₃ : ((t.hour : Int) * 60 + t.minute - 0).toNat = t.hour * 60 + t.minute := by omega
  have h₄ : (t.hour * 60 + t.minute) / 60 = t.hour := by omega
  have h₅ : (t.hour * 60 + t.minute) % 60 = t.minute := by omega
  simp only [minus?, h₁, h₂, h₃, h₄, h₅, ↓reduceIte, of?_self]

/-- an instant with any mark of a zone after it names that instant moved to UTC -/
theorem read?_bareChars (t : Instant) {c : Char} {mark : List Char} {ahead : Int} (hc : c.isDigit = false)
    (hp : c ≠ '.') (hz : zone (skipBlanks (c :: mark)) = some (ahead, [])) :
    read? (String.ofList (t.bareChars ++ c :: mark)) = t.minus? ahead := by
  have hh : t.hour < 100 := by have := t.hour_lt; omega
  have hm : t.minute < 100 := by have := t.minute_lt; omega
  have hs : t.second < 100 := by have := t.second_le; omega
  simp only [read?, String.toList_ofList, bareChars, List.append_assoc, List.cons_append, Option.bind_eq_bind,
    calendarDate_chars, Option.bind_some, separator_T, number_padded hh, number_padded hm, number_padded hs,
    InstantReader.mark_cons (c := ':') rfl, fraction_fractionChars t.nano_lt hc hp, hz, of?_self]
  exact if_pos rfl

/-- a written instant reads back -/
theorem read?_render (t : Instant) : read? t.render = some t := by
  rw [render, t.read?_bareChars rfl (by decide) zone_Z, minus?_zero]

/-- the spelling of an instant tells it apart -/
theorem eq_of_bareChars_eq {t u : Instant} (h : t.bareChars = u.bareChars) : t = u := by
  have ht := read?_render t
  rw [render, h] at ht
  exact Option.some.inj (ht.symm.trans (read?_render u))

end Instant

end Sequitur
