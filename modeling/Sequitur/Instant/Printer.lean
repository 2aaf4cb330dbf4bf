/-
How an instant is written: `2024-01-02T03:04:05.678`, to which a mark of the zone is added.

Years outside 0 to 9999 carry a sign. The fraction has no digits, three, six or nine, the fewest that are exact.
-/
import Sequitur.Instant

namespace Sequitur

/-- the digits of a number with leading zeros up to a width -/
def padded (width n : Nat) : List Char :=
  let ds := Nat.toDigits 10 n
  List.replicate (width - ds.length) '0' ++ ds

def yearChars (y : Int) : List Char :=
  if y < 0 then '-' :: padded 4 y.natAbs
  else if 9999 < y then '+' :: padded 4 y.natAbs
  else padded 4 y.natAbs

def Date.chars (t : Date) : List Char :=
  yearChars t.year ++ '-' :: padded 2 t.month ++ '-' :: padded 2 t.day

/-- the fraction of a second, with its point -/
def fractionChars (nano : Nat) : List Char :=
  if nano = 0 then []
  else if nano % 1000000 = 0 then '.' :: padded 3 (nano / 1000000)
  else if nano % 1000 = 0 then '.' :: padded 6 (nano / 1000)
  else '.' :: padded 9 nano

namespace Instant

/-- the instant without a mark of the zone -/
def bareChars (t : Instant) : List Char :=
  t.date.chars ++ 'T' :: padded 2 t.hour ++ ':' :: padded 2 t.minute ++ ':' :: padded 2 t.second ++
    fractionChars t.nano

/-- the short mark of UTC, as in records -/
def render (t : Instant) : String := String.ofList (t.bareChars ++ ['Z'])

/-- the offset written out, as in seals and in the health report -/
def renderOffset (t : Instant) : String := String.ofList (t.bareChars ++ ['+', '0', '0', ':', '0', '0'])

end Instant

end Sequitur
