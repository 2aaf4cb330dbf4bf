/-
Written JSON reads back.

`Plain` values are those without a foreign part or an overlong number; all records are among them. Reading what
`Json.render` wrote gives the value again (`Json.read?_render`). The statements about parts of a value hold before any text
that may follow one.
-/
import Sequitur.Json.Reader

namespace Sequitur.Json

/-! ## texts -/

theorem pieces_quote (rest : List Char) : pieces ('"' :: rest) = some ([], rest) := by
  rw [pieces.eq_def]
  rfl

theorem pieces_short {e c : Char} (h : shortEscape? e = some c) (rest : List Char) :
    pieces ('\\' :: e :: rest) = (pieces rest).map fun p => (.char c :: p.1, p.2) := by
  have he : e ≠ 'u' := by
    rintro rfl
    revert h
    simp [shortEscape?]
  rw [pieces.eq_def]
  simp only [he, h, Char.reduceEq, ↓reduceIte]
  cases pieces rest <;> rfl

theorem pieces_unit {a b c d : Char} {n : Nat} (h : unit? a b c d = some n) (rest : List Char) :
    pieces ('\\' :: 'u' :: a :: b :: c :: d :: rest) = (pieces rest).map fun p => (.unit n :: p.1, p.2) := by
  rw [pieces.eq_def]
  simp only [h, Char.reduceEq, ↓reduceIte]
  cases pieces rest <;> rfl

theorem pieces_char {c : Char} (h₁ : c ≠ '"') (h₂ : c ≠ '\\') (h₃ : ¬c.toNat < 0x20) (rest : List Char) :
    pieces (c :: rest) = (pieces rest).map fun p => (.char c :: p.1, p.2) := by
  rw [pieces.eq_def]
  simp only [h₁, h₂, h₃, ↓reduceIte]
  cases pieces rest <;> rfl

theorem hexValue?_digitChar : ∀ n < 16, hexValue? (Nat.digitChar n) = some n := by decide

theorem unit?_escape {n : Nat} (h : n < 0x20) :
    unit? '0' '0' (Nat.digitChar (n / 16)) (Nat.digitChar (n % 16)) = some n := by
  have h₁ := hexValue?_digitChar (n / 16) (by omega)
  have h₂ := hexValue?_digitChar (n % 16) (by omega)
  simp only [unit?, h₁, h₂, show hexValue? '0' = some 0 by decide, Option.bind_eq_bind, Option.bind_some,
    Option.pure_def, Option.some.injEq]
  omega

theorem pieces_escape (c : Char) (rest : List Char) :
    ∃ p, (p = .char c ∨ p = .unit c.toNat ∧ c.toNat < 0x20) ∧
      pieces (escape c ++ rest) = (pieces rest).map fun q => (p :: q.1, q.2) := by
  unfold escape
  split
  · subst_vars; exact ⟨_, .inl rfl, pieces_short (by decide) rest⟩
  split
  · subst_vars; exact ⟨_, .inl rfl, pieces_short (by decide) rest⟩
  split
  · subst_vars; exact ⟨_, .inl rfl, pieces_short (by decide) rest⟩
  split
  · subst_vars; exact ⟨_, .inl rfl, pieces_short (by decide) rest⟩
  split
  · subst_vars; exact ⟨_, .inl rfl, pieces_short (by decide) rest⟩
  split
  · subst_vars; exact ⟨_, .inl rfl, pieces_short (by decide) rest⟩
  split
  · subst_vars; exact ⟨_, .inl rfl, pieces_short (by decide) rest⟩
  split
  · rename_i h
    exact ⟨_, .inr ⟨rfl, h⟩, pieces_unit (unit?_escape h) rest⟩
  · rename_i h₁ h₂ _ _ _ _ _ h₃
    exact ⟨_, .inl rfl, pieces_char h₁ h₂ h₃ rest⟩

theorem joined_char (c : Char) (ps : List Piece) : joined (.char c :: ps) = (joined ps).map (c :: ·) := rfl

theorem joined_unit {n : Nat} (h : n < 0x20) (ps : List Piece) :
    joined (.unit n :: ps) = (joined ps).map (Char.ofNat n :: ·) := by
  have h₁ : isHigh n = false := by simp [isHigh]; omega
  have h₂ : isLow n = false := by simp [isLow]; omega
  rw [joined.eq_def]
  simp [h₁, h₂]

theorem pieces_written (s rest : List Char) :
    ∃ ps, pieces (s.flatMap escape ++ '"' :: rest) = some (ps, rest) ∧ joined ps = some s := by
  induction s with
  | nil => exact ⟨[], pieces_quote rest, rfl⟩
  | cons c s ih =>
    obtain ⟨ps, hps, hj⟩ := ih
    obtain ⟨p, hp, he⟩ := pieces_escape c (s.flatMap escape ++ '"' :: rest)
    refine ⟨p :: ps, ?_, ?_⟩
    · rw [List.flatMap_cons, List.append_assoc, he, hps]
      rfl
    · rcases hp with rfl | ⟨rfl, hc⟩
      · rw [joined_char, hj]
        rfl
      · rw [joined_unit hc, hj, Char.ofNat_toNat]
        rfl

/-- a quoted text reads back -/
theorem text_written (s : String) (rest : List Char) :
    text (s.toList.flatMap escape ++ '"' :: rest) = some (some s, rest) := by
  obtain ⟨ps, hps, hj⟩ := pieces_written s.toList rest
  simp [text, hps, hj]

/-! ## numbers -/

/-- what may stand after a written value -/
def Follows (rest : List Char) : Prop := ∀ c ∈ rest.head?, c = ',' ∨ c = ']' ∨ c = '\x7d'

/-- the decimal digits of a number: at least one, and the first is a zero only if it is the only one -/
theorem toDigits_cons (n : Nat) : ∃ c cs, Nat.toDigits 10 n = c :: cs ∧ c.isDigit = true ∧ (c = '0' → cs = []) ∧
    ∀ d ∈ cs, d.isDigit = true := by
  induction n using Nat.strongRecOn with
  | _ n ih =>
    rw [Nat.toDigits_eq_if (by decide)]
    split
    · rename_i h
      refine ⟨_, [], rfl, ?_, fun _ => rfl, by simp⟩
      exact Nat.isDigit_of_mem_toDigits (b := 10) (n := n) (by decide) (by decide)
        (by rw [Nat.toDigits_of_lt_base h]; simp)
    · rename_i h
      obtain ⟨c, cs, hd, hc, h0, hcs⟩ := ih (n / 10) (by omega)
      refine ⟨c, cs ++ [(n % 10).digitChar], by rw [hd]; rfl, hc, ?_, ?_⟩
      · intro hz
        have := h0 hz
        subst hz this
        have h1 : Nat.ofDigitChars 10 (Nat.toDigits 10 (n / 10)) 0 = n / 10 :=
          Nat.ofDigitChars_toDigits (by decide) (by decide)
        rw [hd] at h1
        have h2 : Nat.ofDigitChars 10 ['0'] 0 = 0 := by decide
        omega
      · intro d hdm
        rcases List.mem_append.1 hdm with h' | h'
        · exact hcs d h'
        · rw [List.mem_singleton] at h'
          subst h'
          exact Nat.isDigit_of_mem_toDigits (b := 10) (n := n % 10) (by decide) (by decide)
            (by rw [Nat.toDigits_of_lt_base (Nat.mod_lt _ (by decide))]; simp)

theorem span_digits {cs rest : List Char} (h : ∀ d ∈ cs, d.isDigit = true) (hr : Follows rest) :
    (cs ++ rest).takeWhile Char.isDigit = cs ∧ (cs ++ rest).dropWhile Char.isDigit = rest := by
  have hrest : rest.takeWhile Char.isDigit = [] ∧ rest.dropWhile Char.isDigit = rest := by
    cases rest with
    | nil => simp
    | cons c r =>
      have : c.isDigit = false := by
        rcases hr c (by simp) with rfl | rfl | rfl <;> decide
      simp [this]
  rw [List.takeWhile_append_of_pos h, List.dropWhile_append_of_pos h, hrest.1, hrest.2]
  simp

theorem whole_toDigits (n : Nat) {rest : List Char} (hr : Follows rest) :
    whole (Nat.toDigits 10 n ++ rest) = some (Nat.toDigits 10 n, rest) := by
  obtain ⟨c, cs, hd, hc, h0, hcs⟩ := toDigits_cons n
  rw [hd, List.cons_append, whole.eq_def]
  by_cases hz : c = '0'
  · have := h0 hz
    subst hz this
    cases rest with
    | nil => simp
    | cons d r =>
      have : d.isDigit = false := by
        rcases hr d (by simp) with rfl | rfl | rfl <;> decide
      simp [this]
  · obtain ⟨h1, h2⟩ := span_digits hcs hr
    simp [hz, hc, h1, h2]

theorem goesOn_eq_false {rest : List Char} (hr : Follows rest) : goesOn rest = false := by
  cases rest with
  | nil => rfl
  | cons d r => rcases hr d (by simp) with rfl | rfl | rfl <;> rfl

theorem number_toDigits {n : Nat} (hl : (Nat.toDigits 10 n).length ≤ maxDigits) {rest : List Char} (hr : Follows rest) :
    number (Nat.toDigits 10 n ++ rest) = some (nat n, rest) := by
  have hw := whole_toDigits n hr
  obtain ⟨c, cs, hd, hc, -⟩ := toDigits_cons n
  have hval : Nat.ofDigitChars 10 (Nat.toDigits 10 n) 0 = n := Nat.ofDigitChars_toDigits (by decide) (by decide)
  rw [hd] at hw hval hl ⊢
  rw [List.cons_append] at hw ⊢
  have hm : c ≠ '-' := by
    rintro rfl
    exact absurd hc (by decide)
  rw [number.eq_def]
  simp [hm, hw, goesOn_eq_false hr, hval, -List.length_cons, hl]

/-! ## values -/

mutual

/-- a value without foreign parts and overlong numbers -/
def Plain : Json → Prop
  | foreign => False
  | nat n => (Nat.toDigits 10 n).length ≤ maxDigits
  | arr items => PlainItems items
  | obj fields => PlainFields fields
  | _ => True

def PlainItems : List Json → Prop
  | [] => True
  | v :: rest => Plain v ∧ PlainItems rest

def PlainFields : List (String × Json) → Prop
  | [] => True
  | (_, v) :: rest => Plain v ∧ PlainFields rest

end

mutual

/-- how many calls below each other reading a written value takes -/
def steps : Json → Nat
  | arr items => 1 + stepsItems items
  | obj fields => 1 + stepsFields fields
  | _ => 1

def stepsItems : List Json → Nat
  | [] => 0
  | v :: rest => 1 + steps v + stepsItems rest

def stepsFields : List (String × Json) → Nat
  | [] => 0
  | (_, v) :: rest => 1 + steps v + stepsFields rest

end

theorem mark_cons {c : Char} (h : isSpace c = false) (rest : List Char) : mark (c :: rest) = some (c, rest) := by
  simp [mark, skipSpace, h]

theorem follows_cons {c : Char} (h : c = ',' ∨ c = ']' ∨ c = '\x7d') (rest : List Char) : Follows (c :: rest) := by
  intro d hd
  simp only [List.head?_cons, Option.mem_some_iff] at hd
  exact hd ▸ h

theorem key_written (k : String) (rest : List Char) : key (quoted k.toList ++ ':' :: rest) = some (some k, rest) := by
  simp only [quoted, List.cons_append, List.append_assoc, List.nil_append]
  rw [key, mark_cons (by decide)]
  simp [text_written, mark_cons (c := ':') rfl]

/-- no written value begins with a blank or a closing mark -/
theorem chars_head {v : Json} (h : Plain v) :
    ∃ c cs, v.chars = c :: cs ∧ isSpace c = false ∧ c ≠ ']' ∧ c ≠ '\x7d' := by
  cases v with
  | null => exact ⟨_, _, rfl, by decide, by decide, by decide⟩
  | bool b => cases b <;> exact ⟨_, _, rfl, by decide, by decide, by decide⟩
  | nat n =>
    obtain ⟨c, cs, hd, hc, -⟩ := toDigits_cons n
    refine ⟨c, cs, hd, ?_, ?_, ?_⟩
    · cases hs : isSpace c with
      | false => rfl
      | true =>
        simp only [isSpace, Bool.or_eq_true, beq_iff_eq] at hs
        rcases hs with ((rfl | rfl) | rfl) | rfl <;> exact absurd hc (by decide)
    · rintro rfl; exact absurd hc (by decide)
    · rintro rfl; exact absurd hc (by decide)
  | str s => exact ⟨_, _, rfl, by decide, by decide, by decide⟩
  | arr items => exact ⟨_, _, rfl, by decide, by decide, by decide⟩
  | obj fields => exact ⟨_, _, rfl, by decide, by decide, by decide⟩
  | foreign => exact h.elim

mutual

theorem value_chars : (v : Json) → (fuel : Nat) → (rest : List Char) → Plain v → steps v ≤ fuel → Follows rest →
    value fuel (v.chars ++ rest) = some (v, rest)
  | v, 0, rest, _, hf, _ => by cases v <;> simp [steps] at hf
  | .null, fuel + 1, rest, _, _, _ => by
    rw [value.eq_def]
    simp [chars, mark_cons (c := 'n') rfl, word]
  | .bool true, fuel + 1, rest, _, _, _ => by
    rw [value.eq_def]
    simp [chars, mark_cons (c := 't') rfl, word]
  | .bool false, fuel + 1, rest, _, _, _ => by
    rw [value.eq_def]
    simp [chars, mark_cons (c := 'f') rfl, word]
  | .nat n, fuel + 1, rest, hp, _, hr => by
    have hn := number_toDigits (n := n) (by simpa only [Plain] using hp) hr
    obtain ⟨c, cs, hd, hs, -⟩ := chars_head hp
    obtain ⟨c', cs', hd', hc, -⟩ := toDigits_cons n
    have he : c = c' ∧ cs = cs' := by
      have := hd.symm.trans hd'
      simpa using this
    obtain ⟨rfl, rfl⟩ := he
    have h1 : c ≠ '"' := by rintro rfl; exact absurd hc (by decide)
    have h2 : c ≠ '[' := by rintro rfl; exact absurd hc (by decide)
    have h3 : c ≠ '\x7b' := by rintro rfl; exact absurd hc (by decide)
    have h4 : c ≠ 'n' := by rintro rfl; exact absurd hc (by decide)
    have h5 : c ≠ 't' := by rintro rfl; exact absurd hc (by decide)
    have h6 : c ≠ 'f' := by rintro rfl; exact absurd hc (by decide)
    rw [hd', List.cons_append] at hn
    rw [hd, List.cons_append, value.eq_def]
    simp only [mark_cons hs, h1, h2, h3, h4, h5, h6, ↓reduceIte, hn]
  | .str s, fuel + 1, rest, _, _, _ => by
    rw [value.eq_def]
    simp [chars, quoted, mark_cons (c := '"') rfl, textValue, text_written]
  | .arr [], fuel + 1, rest, _, _, _ => by
    rw [value.eq_def]
    simp [chars, itemChars, commas, mark_cons (c := '[') rfl, mark_cons (c := ']') rfl]
  | .arr (v :: vs), fuel + 1, rest, hp, hf, hr => by
    have hi := items_chars v vs fuel rest hp (by simp only [steps] at hf; omega)
    obtain ⟨c, cs, hd, hs, hb, -⟩ := chars_head (v := v) (by simp only [Plain, PlainItems] at hp; exact hp.1)
    have hm : ∃ t, commas (itemChars (v :: vs)) ++ ']' :: rest = c :: t := by
      cases vs <;> simp [itemChars, commas, hd]
    obtain ⟨t, ht⟩ := hm
    rw [value.eq_def]
    simp only [chars, List.cons_append, List.append_assoc, List.nil_append, mark_cons (c := '[') rfl, Char.reduceEq,
      ↓reduceIte]
    rw [ht] at hi ⊢
    simp only [mark_cons hs, hb, ↓reduceIte, hi]
  | .obj [], fuel + 1, rest, _, _, _ => by
    rw [value.eq_def]
    simp [chars, fieldChars, commas, mark_cons (c := '\x7b') rfl, mark_cons (c := '\x7d') rfl]
  | .obj ((k, v) :: fs), fuel + 1, rest, hp, hf, hr => by
    obtain ⟨ks, hi, hk⟩ := fields_chars k v fs fuel rest hp (by simp only [steps] at hf; omega)
    have hm : ∃ t, commas (fieldChars ((k, v) :: fs)) ++ '\x7d' :: rest = '"' :: t := by
      cases fs <;> simp [fieldChars, commas, quoted]
    obtain ⟨t, ht⟩ := hm
    rw [value.eq_def]
    simp only [chars, List.cons_append, List.append_assoc, List.nil_append, mark_cons (c := '\x7b') rfl,
      Char.reduceEq, ↓reduceIte]
    rw [ht] at hi ⊢
    simp [mark_cons (c := '"') rfl, hi, hk]

theorem items_chars : (v : Json) → (vs : List Json) → (fuel : Nat) → (rest : List Char) → PlainItems (v :: vs) →
    stepsItems (v :: vs) ≤ fuel → items fuel (commas (itemChars (v :: vs)) ++ ']' :: rest) = some (v :: vs, rest)
  | v, vs, 0, rest, _, hf => by simp [stepsItems] at hf
  | v, [], fuel + 1, rest, hp, hf => by
    simp only [stepsItems] at hf
    have hv := value_chars v fuel (']' :: rest) hp.1 (by omega) (follows_cons (by simp) rest)
    rw [items.eq_def]
    simp [itemChars, commas, hv, mark_cons (c := ']') rfl]
  | v, w :: vs, fuel + 1, rest, hp, hf => by
    simp only [stepsItems] at hf
    have hv := value_chars v fuel (',' :: (commas (itemChars (w :: vs)) ++ ']' :: rest)) hp.1 (by omega)
      (follows_cons (by simp) _)
    have hw := items_chars w vs fuel rest hp.2 (by simp only [stepsItems]; omega)
    rw [items.eq_def]
    simp only [itemChars] at hw
    simp only [itemChars, commas, List.append_assoc, List.cons_append] at hv ⊢
    simp [hv, hw, mark_cons (c := ',') rfl]

theorem fields_chars : (k : String) → (v : Json) → (fs : List (String × Json)) → (fuel : Nat) → (rest : List Char) →
    PlainFields ((k, v) :: fs) → stepsFields ((k, v) :: fs) ≤ fuel →
    ∃ ks, fields fuel (commas (fieldChars ((k, v) :: fs)) ++ '\x7d' :: rest) = some (ks, rest) ∧
      keyed ks = some ((k, v) :: fs)
  | k, v, fs, 0, rest, _, hf => by simp [stepsFields] at hf
  | k, v, [], fuel + 1, rest, hp, hf => by
    simp only [stepsFields] at hf
    have hv := value_chars v fuel ('\x7d' :: rest) hp.1 (by omega) (follows_cons (by simp) rest)
    refine ⟨[(some k, v)], ?_, rfl⟩
    rw [fields.eq_def]
    simp only [fieldChars, commas, List.append_assoc, List.cons_append, key_written, hv]
    simp [mark_cons (c := '\x7d') rfl]
  | k, v, (l, w) :: fs, fuel + 1, rest, hp, hf => by
    simp only [stepsFields] at hf
    have hv := value_chars v fuel (',' :: (commas (fieldChars ((l, w) :: fs)) ++ '\x7d' :: rest)) hp.1 (by omega)
      (follows_cons (by simp) _)
    obtain ⟨ks, hw, hk⟩ := fields_chars l w fs fuel rest hp.2 (by simp only [stepsFields]; omega)
    refine ⟨(some k, v) :: ks, ?_, by simp [keyed, hk]⟩
    rw [fields.eq_def]
    simp only [fieldChars] at hw
    simp only [fieldChars, commas, List.append_assoc, List.cons_append] at hv ⊢
    simp [key_written, hv, hw, mark_cons (c := ',') rfl]

end


mutual

theorem steps_le : (v : Json) → Plain v → steps v ≤ 2 * v.chars.length
  | .null, _ => by simp [steps, chars]
  | .bool true, _ => by simp [steps, chars]
  | .bool false, _ => by simp [steps, chars]
  | .nat n, _ => by
    obtain ⟨c, cs, hd, -⟩ := toDigits_cons n
    simp only [steps, chars, hd, List.length_cons]
    omega
  | .str s, _ => by
    simp only [steps, chars, quoted, List.length_cons]
    omega
  | .arr items, hp => by
    have h := stepsItems_le items hp
    simp only [steps, chars, List.length_cons, List.length_append, List.length_nil]
    omega
  | .obj fields, hp => by
    have h := stepsFields_le fields hp
    simp only [steps, chars, List.length_cons, List.length_append, List.length_nil]
    omega

theorem stepsItems_le : (vs : List Json) → PlainItems vs → stepsItems vs ≤ 2 * (commas (itemChars vs)).length + 1
  | [], _ => by simp [stepsItems]
  | [v], hp => by
    have h := steps_le v hp.1
    simp only [stepsItems, itemChars, commas]
    omega
  | v :: w :: vs, hp => by
    have h := steps_le v hp.1
    have h' := stepsItems_le (w :: vs) hp.2
    simp only [stepsItems, itemChars, commas, List.length_append, List.length_cons] at h' ⊢
    omega

theorem stepsFields_le : (fs : List (String × Json)) → PlainFields fs →
    stepsFields fs ≤ 2 * (commas (fieldChars fs)).length + 1
  | [], _ => by simp [stepsFields]
  | [(k, v)], hp => by
    have h := steps_le v hp.1
    simp only [stepsFields, fieldChars, commas, List.length_append, List.length_cons]
    omega
  | (k, v) :: (l, w) :: fs, hp => by
    have h := steps_le v hp.1
    have h' := stepsFields_le ((l, w) :: fs) hp.2
    simp only [stepsFields, fieldChars, commas, List.length_append, List.length_cons] at h' ⊢
    omega

end

/-- a written value reads back -/
theorem read?_render {v : Json} (h : Plain v) : read? v.render = some v := by
  have hs := steps_le v h
  have hv := value_chars v (2 * v.chars.length + 2) [] h (by omega) (by simp [Follows])
  rw [List.append_nil] at hv
  simp [read?, render_eq, hv, skipSpace]

end Sequitur.Json
