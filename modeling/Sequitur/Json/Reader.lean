/-
Reading JSON.

The grammar is the strict one: the four blanks, no leading zeros, no trailing commas, no control characters inside
quotes, and nothing but blanks after the value. A `\u` escape names a 16-bit unit; two units that form a surrogate pair
are one character, and a text with half a pair denotes none. Such a text, an object with such a key, and a number that
is not written as a natural one of at most twenty digits are read as `foreign`, so that they can stand where nobody asks
for them.

Each function reads one thing off the front of the text and returns what is left. The nesting is not limited; `fuel` is
a bound on the number of calls below each other, for which twice the length of the text is enough.
-/
import Sequitur.Json

namespace Sequitur.Json

/-- one thing, and the text after it -/
abbrev Read (α : Type) := Option (α × List Char)

def isSpace (c : Char) : Bool := c == ' ' || c == '\t' || c == '\n' || c == '\r'

def skipSpace (cs : List Char) : List Char := cs.dropWhile isSpace

/-! ## texts -/

/-- what stands between quotes: characters, and 16-bit units given by escapes -/
inductive Piece where
  | char (c : Char)
  | unit (n : Nat)
  deriving DecidableEq

def hexValue? (c : Char) : Option Nat :=
  if '0' ≤ c ∧ c ≤ '9' then some (c.toNat - '0'.toNat)
  else if 'a' ≤ c ∧ c ≤ 'f' then some (c.toNat - 'a'.toNat + 10)
  else if 'A' ≤ c ∧ c ≤ 'F' then some (c.toNat - 'A'.toNat + 10)
  else none

/-- the unit that four hexadecimal digits name -/
def unit? (a b c d : Char) : Option Nat := do
  let a ← hexValue? a
  let b ← hexValue? b
  let c ← hexValue? c
  let d ← hexValue? d
  return ((a * 16 + b) * 16 + c) * 16 + d

/-- the characters with an escape of one letter -/
def shortEscape? (c : Char) : Option Char :=
  if c = '"' then some '"'
  else if c = '\\' then some '\\'
  else if c = '/' then some '/'
  else if c = 'b' then some '\x08'
  else if c = 'f' then some '\x0c'
  else if c = 'n' then some '\n'
  else if c = 'r' then some '\r'
  else if c = 't' then some '\t'
  else none

/-- the pieces up to the closing quote -/
def pieces : List Char → Read (List Piece)
  | [] => none
  | c :: rest =>
    if c = '"' then some ([], rest)
    else if c = '\\' then
      match rest with
      | [] => none
      | e :: rest =>
        if e = 'u' then
          match rest with
          | h₁ :: h₂ :: h₃ :: h₄ :: rest =>
            match unit? h₁ h₂ h₃ h₄, pieces rest with
            | some n, some (ps, after) => some (.unit n :: ps, after)
            | _, _ => none
          | _ => none
        else
          match shortEscape? e, pieces rest with
          | some c, some (ps, after) => some (.char c :: ps, after)
          | _, _ => none
    else if c.toNat < 0x20 then none
    else
      match pieces rest with
      | some (ps, after) => some (.char c :: ps, after)
      | none => none

def isHigh (n : Nat) : Bool := 0xD800 ≤ n && n < 0xDC00

def isLow (n : Nat) : Bool := 0xDC00 ≤ n && n < 0xE000

/-- the characters that pieces stand for, unless half a surrogate pair is among them -/
def joined : List Piece → Option (List Char)
  | [] => some []
  | .char c :: ps => (joined ps).map (c :: ·)
  | .unit n :: ps =>
    if isHigh n then
      match ps with
      | .unit m :: ps =>
        if isLow m then (joined ps).map (Char.ofNat (0x10000 + (n - 0xD800) * 0x400 + (m - 0xDC00)) :: ·) else none
      | _ => none
    else if isLow n then none
    else (joined ps).map (Char.ofNat n :: ·)

/-- a text after its opening quote; none inside when it holds half a surrogate pair -/
def text (cs : List Char) : Read (Option String) :=
  match pieces cs with
  | some (ps, rest) => some ((joined ps).map String.ofList, rest)
  | none => none

/-! ## numbers -/

/-- digits without a leading zero -/
def whole : List Char → Read (List Char)
  | [] => none
  | c :: rest =>
    if c = '0' then
      match rest with
      | [] => some (['0'], [])
      | d :: _ => if d.isDigit then none else some (['0'], rest)
    else if c.isDigit then some (c :: rest.takeWhile Char.isDigit, rest.dropWhile Char.isDigit)
    else none

/-- what is left after at least one digit -/
def someDigits : List Char → Option (List Char)
  | [] => none
  | c :: rest => if c.isDigit then some (rest.dropWhile Char.isDigit) else none

/-- what is left after a fraction, if there is one -/
def skipFraction : List Char → Option (List Char)
  | [] => some []
  | c :: rest => if c = '.' then someDigits rest else some (c :: rest)

/-- what is left after an exponent, if there is one -/
def skipExponent : List Char → Option (List Char)
  | [] => some []
  | e :: rest =>
    if e = 'e' ∨ e = 'E' then
      match rest with
      | [] => none
      | s :: digits => if s = '+' ∨ s = '-' then someDigits digits else someDigits rest
    else some (e :: rest)

/-- whether a number goes on after its whole part -/
def goesOn : List Char → Bool
  | [] => false
  | c :: _ => c == '.' || c == 'e' || c == 'E'

/-- a number that goes on after its whole part or has a sign, from what stands after the whole part -/
def foreignNumber (cs : List Char) : Read Json :=
  match (skipFraction cs).bind skipExponent with
  | some rest => some (foreign, rest)
  | none => none

/-- how many digits a natural number may have -/
def maxDigits : Nat := 20

def number : List Char → Read Json
  | [] => none
  | c :: rest =>
    if c = '-' then
      match whole rest with
      | some (_, after) => foreignNumber after
      | none => none
    else
      match whole (c :: rest) with
      | some (ds, after) =>
        if goesOn after then foreignNumber after
        else if ds.length ≤ maxDigits then some (nat (Nat.ofDigitChars 10 ds 0), after)
        else some (foreign, after)
      | none => none

/-! ## values -/

/-- the fields with their keys, if every key denotes a text -/
def keyed : List (Option String × Json) → Option (List (String × Json))
  | [] => some []
  | (none, _) :: _ => none
  | (some k, v) :: rest => (keyed rest).map ((k, v) :: ·)

/-- a word that stands for a value; its first letter has been read -/
def word (letters : List Char) (v : Json) (cs : List Char) : Read Json :=
  if letters.isPrefixOf cs then some (v, cs.drop letters.length) else none

/-- a text value after its opening quote -/
def textValue (cs : List Char) : Read Json :=
  match text cs with
  | some (some s, after) => some (str s, after)
  | some (none, after) => some (foreign, after)
  | none => none

/-- the first character after blanks, and what follows it -/
def mark (cs : List Char) : Read Char :=
  match skipSpace cs with
  | [] => none
  | c :: rest => some (c, rest)

/-- a key and the colon after it -/
def key (cs : List Char) : Read (Option String) :=
  match mark cs with
  | none => none
  | some (c, rest) =>
    if c = '"' then
      match text rest with
      | none => none
      | some (k, rest) =>
        match mark rest with
        | none => none
        | some (c, rest) => if c = ':' then some (k, rest) else none
    else none

mutual

/-- a value, after blanks -/
def value : (fuel : Nat) → List Char → Read Json
  | 0, _ => none
  | fuel + 1, cs =>
    match mark cs with
    | none => none
    | some (c, rest) =>
      if c = '"' then textValue rest
      else if c = '[' then
        match mark rest with
        | none => none
        | some (d, after) =>
          if d = ']' then some (arr [], after)
          else
            match items fuel rest with
            | some (vs, after) => some (arr vs, after)
            | none => none
      else if c = '\x7b' then
        match mark rest with
        | none => none
        | some (d, after) =>
          if d = '\x7d' then some (obj [], after)
          else
            match fields fuel rest with
            | some (fs, after) =>
              match keyed fs with
              | some fs => some (obj fs, after)
              | none => some (foreign, after)
            | none => none
      else if c = 'n' then word ['u', 'l', 'l'] null rest
      else if c = 't' then word ['r', 'u', 'e'] (bool true) rest
      else if c = 'f' then word ['a', 'l', 's', 'e'] (bool false) rest
      else number (c :: rest)

/-- the items of an array up to its closing bracket; there is at least one -/
def items : (fuel : Nat) → List Char → Read (List Json)
  | 0, _ => none
  | fuel + 1, cs =>
    match value fuel cs with
    | none => none
    | some (v, rest) =>
      match mark rest with
      | none => none
      | some (c, rest) =>
        if c = ',' then
          match items fuel rest with
          | some (vs, after) => some (v :: vs, after)
          | none => none
        else if c = ']' then some ([v], rest)
        else none

/-- the fields of an object up to its closing brace; there is at least one -/
def fields : (fuel : Nat) → List Char → Read (List (Option String × Json))
  | 0, _ => none
  | fuel + 1, cs =>
    match key cs with
    | none => none
    | some (k, rest) =>
      match value fuel rest with
      | none => none
      | some (v, rest) =>
        match mark rest with
        | none => none
        | some (c, rest) =>
          if c = ',' then
            match fields fuel rest with
            | some (fs, after) => some ((k, v) :: fs, after)
            | none => none
          else if c = '\x7d' then some ([(k, v)], rest)
          else none

end

/-- the value that a whole text spells -/
def read? (s : String) : Option Json :=
  let cs := s.toList
  match value (2 * cs.length + 2) cs with
  | some (v, rest) => if skipSpace rest = [] then some v else none
  | none => none

end Sequitur.Json
