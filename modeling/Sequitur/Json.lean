/-
JSON values and how they are written.

An object keeps its fields in the order they were given, repetitions included. Numbers that the program itself handles
are natural and have at most twenty digits; any other number, a text with half of a surrogate pair, and an object with
such a key mean nothing here, and all that is known of them is that they are there (`foreign`).

`Json.chars` writes compactly. A text is quoted with the short escapes for `"`, `\`, and the five control characters
that have one; the other characters below U+0020 are written as four hexadecimal digits, and everything else as itself.
`Json.render` writes the same in one pass, from the end to the front. Main statement: `render_eq`.
-/
namespace Sequitur

inductive Json where
  | null
  | bool (b : Bool)
  | nat (n : Nat)
  | str (s : String)
  | arr (items : List Json)
  | obj (fields : List (String × Json))
  /-- a well-formed value outside the range of the others -/
  | foreign

namespace Json

/-- how a character is written between quotes -/
def escape (c : Char) : List Char :=
  if c = '"' then ['\\', '"']
  else if c = '\\' then ['\\', '\\']
  else if c = '\x08' then ['\\', 'b']
  else if c = '\x0c' then ['\\', 'f']
  else if c = '\n' then ['\\', 'n']
  else if c = '\r' then ['\\', 'r']
  else if c = '\t' then ['\\', 't']
  else if c.toNat < 0x20 then
    ['\\', 'u', '0', '0', Nat.digitChar (c.toNat / 16), Nat.digitChar (c.toNat % 16)]
  else [c]

/-- a text between quotes -/
def quoted (s : List Char) : List Char := '"' :: (s.flatMap escape ++ ['"'])

/-- items with commas between them -/
def commas : List (List Char) → List Char
  | [] => []
  | [x] => x
  | x :: y :: rest => x ++ ',' :: commas (y :: rest)

mutual

/-- the compact spelling; a foreign value leaves a null -/
def chars : Json → List Char
  | null => ['n', 'u', 'l', 'l']
  | bool true => ['t', 'r', 'u', 'e']
  | bool false => ['f', 'a', 'l', 's', 'e']
  | nat n => Nat.toDigits 10 n
  | str s => quoted s.toList
  | arr items => '[' :: (commas (itemChars items) ++ [']'])
  | obj fields => '\x7b' :: (commas (fieldChars fields) ++ ['\x7d'])
  | foreign => ['n', 'u', 'l', 'l']

def itemChars : List Json → List (List Char)
  | [] => []
  | v :: rest => chars v :: itemChars rest

def fieldChars : List (String × Json) → List (List Char)
  | [] => []
  | (key, v) :: rest => (quoted key.toList ++ ':' :: chars v) :: fieldChars rest

end

/-! ## in one pass -/

/-- a text between quotes before what follows -/
def quotedThen (s : String) (rest : List Char) : List Char :=
  '"' :: s.toList.foldr (fun c after => escape c ++ after) ('"' :: rest)

mutual

/-- the compact spelling before what follows -/
def charsThen : Json → List Char → List Char
  | null, rest => 'n' :: 'u' :: 'l' :: 'l' :: rest
  | bool true, rest => 't' :: 'r' :: 'u' :: 'e' :: rest
  | bool false, rest => 'f' :: 'a' :: 'l' :: 's' :: 'e' :: rest
  | nat n, rest => Nat.toDigits 10 n ++ rest
  | str s, rest => quotedThen s rest
  | arr items, rest => '[' :: itemsThen items (']' :: rest)
  | obj fields, rest => '\x7b' :: fieldsThen fields ('\x7d' :: rest)
  | foreign, rest => 'n' :: 'u' :: 'l' :: 'l' :: rest

def itemsThen : List Json → List Char → List Char
  | [], rest => rest
  | v :: vs, rest => charsThen v (if vs.isEmpty then rest else ',' :: itemsThen vs rest)

def fieldsThen : List (String × Json) → List Char → List Char
  | [], rest => rest
  | (key, v) :: fs, rest =>
    quotedThen key (':' :: charsThen v (if fs.isEmpty then rest else ',' :: fieldsThen fs rest))

end

theorem quotedThen_eq (s : String) (rest : List Char) : quotedThen s rest = quoted s.toList ++ rest := by
  have h (l : List Char) (r : List Char) : l.foldr (fun c after => escape c ++ after) r = l.flatMap escape ++ r := by
    induction l with
    | nil => rfl
    | cons c l ih => simp [ih]
  simp [quotedThen, quoted, h]

mutual

theorem charsThen_eq : (v : Json) → (rest : List Char) → charsThen v rest = v.chars ++ rest
  | null, _ => rfl
  | bool true, _ => rfl
  | bool false, _ => rfl
  | nat _, _ => rfl
  | str s, rest => quotedThen_eq s rest
  | arr items, rest => by simp [charsThen, chars, itemsThen_eq items]
  | obj fields, rest => by simp [charsThen, chars, fieldsThen_eq fields]
  | foreign, _ => rfl

theorem itemsThen_eq : (vs : List Json) → (rest : List Char) → itemsThen vs rest = commas (itemChars vs) ++ rest
  | [], _ => rfl
  | [v], rest => by simp [itemsThen, itemChars, commas, charsThen_eq v]
  | v :: w :: vs, rest => by
    have ih := itemsThen_eq (w :: vs) rest
    simp only [itemChars] at ih
    rw [itemsThen, charsThen_eq v, List.isEmpty_cons, if_neg (by decide), ih]
    simp [itemChars, commas]

theorem fieldsThen_eq : (fs : List (String × Json)) → (rest : List Char) →
    fieldsThen fs rest = commas (fieldChars fs) ++ rest
  | [], _ => rfl
  | [(k, v)], rest => by simp [fieldsThen, fieldChars, commas, charsThen_eq v, quotedThen_eq]
  | (k, v) :: (l, w) :: fs, rest => by
    have ih := fieldsThen_eq ((l, w) :: fs) rest
    simp only [fieldChars] at ih
    rw [fieldsThen, quotedThen_eq, charsThen_eq v, List.isEmpty_cons, if_neg (by decide), ih]
    simp [fieldChars, commas]

end

/-- the compact spelling as a text -/
def render (v : Json) : String := String.ofList (v.charsThen [])

theorem render_eq (v : Json) : v.render = String.ofList v.chars := by
  rw [render, charsThen_eq, List.append_nil]

/-- null where there is nothing -/
def ofOption (f : α → Json) : Option α → Json
  | some a => f a
  | none => null

/-- an array of texts -/
def strs (l : List String) : Json := arr (l.map str)

/-- an array of truth values -/
def bools (l : List Bool) : Json := arr (l.map bool)

end Json

end Sequitur
