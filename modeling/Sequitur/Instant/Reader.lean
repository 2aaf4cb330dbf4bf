/-
Reading instants.

The form is that of RFC 3339 with some liberties. Numbers may be shorter than usual and may have blanks before them;
blanks may stand before `-` and `:`; a year with a sign may have any number of digits; date and time are parted by `T`,
`t` or a space; digits of the fraction after the ninth are dropped. The zone is `Z`, `z`, `UTC` in any case, or an offset
of less than a day whose minutes are given. The instant is moved to UTC, and has to be in range before and after.
-/
import Sequitur.Instant
import Sequitur.Text.Blank
import Sequitur.Text.Decimal

namespace Sequitur

open Text

namespace InstantReader

/-- one to `width` digits, of which nine may be significant: no number in a date or time is greater -/
def digits (width : Nat) (cs : List Char) : Option (Nat × List Char) :=
  let ds := (cs.take width).takeWhile Char.isDigit
  if ds = [] then none else (decimal? 9 ds).map fun n => (n, cs.drop ds.length)

/-- the same after blanks -/
def number (width : Nat) (cs : List Char) : Option (Nat × List Char) := digits width (skipBlanks cs)

/-- a year: at most four digits, or a sign and any number of them -/
def year (cs : List Char) : Option (Int × List Char) :=
  match skipBlanks cs with
  | '-' :: rest => (digits rest.length rest).map fun (n, rest) => (-(n : Int), rest)
  | '+' :: rest => (digits rest.length rest).map fun (n, rest) => ((n : Int), rest)
  | cs => (digits 4 cs).map fun (n, rest) => ((n : Int), rest)

/-- a mark, after blanks -/
def mark (c : Char) (cs : List Char) : Option (List Char) :=
  match skipBlanks cs with
  | d :: rest => if d = c then some rest else none
  | [] => none

def calendarDate (cs : List Char) : Option (Date × List Char) := do
  let (y, cs) ← year cs
  let cs ← mark '-' cs
  let (m, cs) ← number 2 cs
  let cs ← mark '-' cs
  let (d, cs) ← number 2 cs
  return (← Date.of? y m d, cs)

/-- what parts date and time -/
def separator : List Char → Option (List Char)
  | c :: rest => if c = 'T' ∨ c = 't' ∨ c = ' ' then some rest else none
  | [] => none

/-- nanoseconds, if there is a fraction: nine digits count, any further ones are dropped -/
def fraction : List Char → Option (Nat × List Char)
  | '.' :: rest =>
    let ds := (rest.take 9).takeWhile Char.isDigit
    if ds = [] then none
    else
      let nano := Nat.ofDigitChars 10 (ds ++ List.replicate (9 - ds.length) '0') 0
      some (nano, rest.dropWhile Char.isDigit)
  | cs => some (0, cs)

/-- exactly two digits -/
def twoDigits : List Char → Option (Nat × List Char)
  | a :: b :: rest =>
    if a.isDigit && b.isDigit then some (Nat.ofDigitChars 10 [a, b] 0, rest) else none
  | _ => none

/-- hours and minutes of an offset, with colons or blanks between them if any, in minutes -/
def offset (cs : List Char) : Option (Nat × List Char) := do
  let (h, cs) ← twoDigits cs
  let (m, cs) ← twoDigits (cs.dropWhile fun c => c == ':' || isBlank c)
  if m < 60 ∧ h < 24 then some (h * 60 + m, cs) else none

def isUtc (a b c : Char) : Bool :=
  (a == 'U' || a == 'u') && (b == 'T' || b == 't') && (c == 'C' || c == 'c')

/-- the zone, in minutes ahead of UTC -/
def zone : List Char → Option (Int × List Char)
  | [] => none
  | c :: rest =>
    if c = 'Z' ∨ c = 'z' then some (0, rest)
    else if c = '+' then (offset rest).map fun (n, rest) => ((n : Int), rest)
    else if c = '-' ∨ c = '−' then (offset rest).map fun (n, rest) => (-(n : Int), rest)
    else
      match rest with
      | d :: e :: rest => if isUtc c d e then some (0, rest) else none
      | _ => none

end InstantReader

open InstantReader

/-- the instant that a text names -/
def Instant.read? (s : String) : Option Instant := do
  let (date, cs) ← calendarDate s.toList
  let cs ← separator cs
  let (h, cs) ← number 2 cs
  let cs ← mark ':' cs
  let (m, cs) ← number 2 cs
  let cs ← mark ':' cs
  let (s, cs) ← number 2 cs
  let (n, cs) ← fraction cs
  let (ahead, cs) ← zone (skipBlanks cs)
  if skipBlanks cs = [] then (← Instant.of? date h m s n).minus? ahead else none

end Sequitur
