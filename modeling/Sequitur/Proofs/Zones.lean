/-
Times told at an offset from UTC.

A time may be given as the clock shows it somewhere else, with how far that clock is ahead of UTC. What is kept is the time in
UTC, and the offset is gone. Going over to the other clock and back must then lead to the same time: across midnight, across
the end of a month or a year, and with a leap second, which stays the 60th second of whatever minute it falls into there.

- `Instant.minus?_neg`: minutes taken away are undone by adding them;
- `Instant.read?_renderAt`: a time written at an offset is read as the time in UTC.
-/
import Mathlib
import Sequitur.Instant.RoundTrip

namespace Sequitur

namespace Date

variable {t u : Date} {y : Int} {m d : Nat}

theorem of?_eq_some_iff : of? y m d = some u ↔ u.year = y ∧ u.month = m ∧ u.day = d := by
  constructor
  · intro h
    unfold of? at h
    split at h
    · cases h
      exact ⟨rfl, rfl, rfl⟩
    · cases h
  · rintro ⟨rfl, rfl, rfl⟩
    exact u.of?_self

/-- the day after: in the same month, the first of the next, or the first of the year -/
theorem next?_eq_some_iff : t.next? = some u ↔
    (t.day < daysInMonth t.year t.month ∧ u.year = t.year ∧ u.month = t.month ∧ u.day = t.day + 1) ∨
    (t.day = daysInMonth t.year t.month ∧ t.month < 12 ∧ u.year = t.year ∧ u.month = t.month + 1 ∧ u.day = 1) ∨
    (t.day = daysInMonth t.year t.month ∧ t.month = 12 ∧ u.year = t.year + 1 ∧ u.month = 1 ∧ u.day = 1) := by
  have hd := t.day_le
  have hm := t.month_le
  unfold next?
  split
  · rw [of?_eq_some_iff]
    omega
  · split
    · rw [of?_eq_some_iff]
      omega
    · rw [of?_eq_some_iff]
      omega

/-- the day before is the day that has this one after it -/
theorem prev?_eq_some_iff : t.prev? = some u ↔ u.next? = some t := by
  have december (y : Int) : daysInMonth y 12 = 31 := rfl
  have htd := t.day_pos
  have htm := t.month_pos
  have htm' := t.month_le
  have hud := u.day_pos
  have hum := u.month_pos
  rw [next?_eq_some_iff]
  unfold prev?
  split
  case isTrue hday =>
    have hle := t.day_le
    rw [of?_eq_some_iff]
    constructor
    · rintro ⟨hy', hm', hd'⟩
      rw [hy', hm']
      omega
    · rintro (h | h | h)
      · omega
      · omega
      · omega
  case isFalse hday =>
    split
    case isTrue hmonth =>
      rw [of?_eq_some_iff]
      constructor
      · rintro ⟨hy', hm', hd'⟩
        rw [hy', hm']
        omega
      · rintro (h | ⟨hlast, -, hy', hm', -⟩ | h)
        · omega
        · rw [hy', hm', Nat.add_sub_cancel]
          exact ⟨rfl, rfl, hlast⟩
        · omega
    case isFalse hmonth =>
      rw [of?_eq_some_iff]
      constructor
      · rintro ⟨hy', hm', hd'⟩
        rw [hy', hm', december]
        omega
      · rintro (h | h | ⟨hlast, hm', hy', -, -⟩)
        · omega
        · omega
        · rw [hm', december] at hlast
          omega

end Date

namespace Instant

open InstantReader Text

variable {t u : Instant} {date : Date} {h m s n : Nat} {ahead : Int}

theorem of?_eq_some_iff : of? date h m s n = some u ↔
    u.date = date ∧ u.hour = h ∧ u.minute = m ∧ u.second = s ∧ u.nano = n := by
  constructor
  · intro hu
    unfold of? at hu
    split at hu
    · cases hu
      exact ⟨rfl, rfl, rfl, rfl, rfl⟩
    · cases hu
  · rintro ⟨rfl, rfl, rfl, rfl, rfl⟩
    exact u.of?_self

/-- minutes since midnight -/
def minuteOfDay (t : Instant) : Nat := t.hour * 60 + t.minute

theorem minuteOfDay_lt (t : Instant) : t.minuteOfDay < 1440 := by
  have := t.hour_lt
  have := t.minute_lt
  unfold minuteOfDay
  omega

/-- an instant on a day, if there is that day, at a minute of it and with the second and fraction of another instant -/
theorem bind_of?_eq_some_iff {day : Option Date} {k : Nat} :
    (day.bind fun d => of? d (k / 60) (k % 60) t.second t.nano) = some u ↔
      day = some u.date ∧ u.minuteOfDay = k ∧ u.second = t.second ∧ u.nano = t.nano := by
  have := u.minute_lt
  simp only [Option.bind_eq_some_iff, of?_eq_some_iff, minuteOfDay]
  constructor
  · rintro ⟨d, hday, rfl, hh, hm, hrest⟩
    exact ⟨hday, by omega, hrest⟩
  · rintro ⟨hday, hk, hrest⟩
    exact ⟨u.date, hday, rfl, by omega, by omega, hrest⟩

/-- the time so many minutes earlier is on the same day, the day before or the day after, and no second or fraction of it
changes -/
theorem minus?_eq_some_iff (ha : ahead.natAbs < 1440) : t.minus? ahead = some u ↔
    (u.second = t.second ∧ u.nano = t.nano) ∧
      ((some t.date = some u.date ∧ (u.minuteOfDay : Int) = t.minuteOfDay - ahead) ∨
        (t.date.prev? = some u.date ∧ (u.minuteOfDay : Int) = t.minuteOfDay - ahead + 1440) ∨
        (t.date.next? = some u.date ∧ (u.minuteOfDay : Int) = t.minuteOfDay - ahead - 1440)) := by
  have ht := t.minuteOfDay_lt
  have hu := u.minuteOfDay_lt
  have hlocal : (t.hour : Int) * 60 + t.minute - ahead = t.minuteOfDay - ahead := by
    simp [minuteOfDay]
  unfold minus?
  simp only [hlocal]
  split
  · rw [bind_of?_eq_some_iff]
    constructor
    · rintro ⟨hday, hk, hrest⟩
      exact ⟨hrest, .inr (.inl ⟨hday, by omega⟩)⟩
    · rintro ⟨hrest, h | h | h⟩
      · omega
      · exact ⟨h.1, by omega, hrest⟩
      · omega
  · split
    · rw [bind_of?_eq_some_iff]
      constructor
      · rintro ⟨hday, hk, hrest⟩
        exact ⟨hrest, .inr (.inr ⟨hday, by omega⟩)⟩
      · rintro ⟨hrest, h | h | h⟩
        · omega
        · omega
        · exact ⟨h.1, by omega, hrest⟩
    · rw [← Option.bind_some (f := fun d => of? d _ _ t.second t.nano), bind_of?_eq_some_iff]
      constructor
      · rintro ⟨hday, hk, hrest⟩
        exact ⟨hrest, .inl ⟨hday, by omega⟩⟩
      · rintro ⟨hrest, h | h | h⟩
        · exact ⟨h.1, by omega, hrest⟩
        · omega
        · omega

/-- taking minutes away is undone by adding them -/
theorem minus?_neg (ha : ahead.natAbs < 1440) (h : t.minus? ahead = some u) : u.minus? (-ahead) = some t := by
  have hn : (-ahead).natAbs < 1440 := by rwa [Int.natAbs_neg]
  obtain ⟨⟨hs, hf⟩, h⟩ := (minus?_eq_some_iff ha).1 h
  refine (minus?_eq_some_iff hn).2 ⟨⟨hs.symm, hf.symm⟩, ?_⟩
  rcases h with ⟨hd, hm⟩ | ⟨hd, hm⟩ | ⟨hd, hm⟩
  · exact .inl ⟨hd.symm, by omega⟩
  · exact .inr (.inr ⟨Date.prev?_eq_some_iff.1 hd, by omega⟩)
  · exact .inr (.inl ⟨Date.prev?_eq_some_iff.2 hd, by omega⟩)

/-- how far a clock is ahead of UTC, as in `+02:00` -/
def offsetChars (ahead : Int) : List Char :=
  (if ahead < 0 then '-' else '+') :: (padded 2 (ahead.natAbs / 60) ++ ':' :: padded 2 (ahead.natAbs % 60))

/-- what a clock shows, with how far it is ahead of UTC -/
def renderAt (t : Instant) (ahead : Int) : String := String.ofList (t.bareChars ++ offsetChars ahead)

/-- a number of two digits is written with both of them -/
theorem exists_two_digits {k : Nat} (hk : k < 100) :
    ∃ a b, padded 2 k = [a, b] ∧ a.isDigit = true ∧ b.isDigit = true := by
  obtain ⟨a, b, hab⟩ := List.length_eq_two.1 (length_padded_two hk)
  exact ⟨a, b, hab, isDigit_padded (by rw [hab]; simp), isDigit_padded (by rw [hab]; simp)⟩

theorem twoDigits_padded {k : Nat} (hk : k < 100) (rest : List Char) : twoDigits (padded 2 k ++ rest) = some (k, rest) := by
  obtain ⟨a, b, hab, ha, hb⟩ := exists_two_digits hk
  have hvalue := value_padded 2 k
  rw [hab] at hvalue ⊢
  simp [twoDigits, ha, hb, hvalue]

theorem offset_digits {k : Nat} (hk : k < 1440) :
    offset (padded 2 (k / 60) ++ ':' :: padded 2 (k % 60)) = some (k, []) := by
  have hcolon : (':' :: padded 2 (k % 60)).dropWhile (fun c => c == ':' || isBlank c) = padded 2 (k % 60) := by
    obtain ⟨a, b, hab, ha, -⟩ := exists_two_digits (k := k % 60) (by omega)
    have hne : a ≠ ':' := by
      rintro rfl
      exact absurd ha (by decide)
    simp [hab, hne, isBlank_of_isDigit ha]
  have hminutes := twoDigits_padded (k := k % 60) (by omega) []
  rw [List.append_nil] at hminutes
  simp only [offset, twoDigits_padded (k := k / 60) (by omega), Option.bind_eq_bind, Option.bind_some, hcolon, hminutes]
  rw [if_pos (by omega)]
  simp only [Option.some.injEq, Prod.mk.injEq, and_true]
  omega

theorem zone_offsetChars (ha : ahead.natAbs < 1440) : zone (skipBlanks (offsetChars ahead)) = some (ahead, []) := by
  unfold offsetChars
  split
  · simp [skipBlanks, show isBlank '-' = false from rfl, zone, offset_digits ha, -Nat.cast_natAbs]
    omega
  · simp [skipBlanks, show isBlank '+' = false from rfl, zone, offset_digits ha, -Nat.cast_natAbs]
    omega

/-- a time written at an offset is read as the time in UTC -/
theorem read?_renderAt (t : Instant) (ha : ahead.natAbs < 1440) : read? (t.renderAt ahead) = t.minus? ahead := by
  have hsign : (if ahead < 0 then '-' else '+').isDigit = false ∧ (if ahead < 0 then '-' else '+') ≠ '.' := by
    split <;> decide
  exact t.read?_bareChars hsign.1 hsign.2 (zone_offsetChars ha)

/-- what any clock shows at an instant is read as that instant -/
theorem read?_renderAt_of_local (ha : ahead.natAbs < 1440) (hu : t.minus? (-ahead) = some u) :
    read? (u.renderAt ahead) = some t := by
  have hn : (-ahead).natAbs < 1440 := by rwa [Int.natAbs_neg]
  rw [u.read?_renderAt ha, ← neg_neg ahead]
  exact minus?_neg hn hu

end Instant

end Sequitur
