/-
Quoted text that shows every character apart.

A text stands between double quotes. Quote, backslash, newline, carriage return, tab and NUL have short escapes; a
character that combines with the one before it, or has no printed form, is written as its code point in braces; all
others, the single quote among them, stand for themselves. A quoted text ends at the first quote without a backslash
before it, so no two texts have the same quoted form and none is the start of another's.
-/
import Sequitur.Text.Combining
import Sequitur.Text.Unprintable

namespace Sequitur.Text

/-- a code point in braces, in lower-case hexadecimal without leading zeros -/
def codePointEscape (c : Char) : List Char := '\\' :: 'u' :: '\x7b' :: (Nat.toDigits 16 c.toNat ++ ['\x7d'])

/-- how a character is written between quotes -/
def showChar (c : Char) : List Char :=
  if c = '"' then ['\\', '"']
  else if c = '\\' then ['\\', '\\']
  else if c = '\n' then ['\\', 'n']
  else if c = '\r' then ['\\', 'r']
  else if c = '\t' then ['\\', 't']
  else if c = '\x00' then ['\\', '0']
  else if isCombining c || isUnprintable c then codePointEscape c
  else [c]

/-- a text between quotes -/
def quoted (s : String) : List Char := '"' :: (s.toList.flatMap showChar ++ ['"'])

/-- the quoted texts of a list, between brackets -/
def quotedList (l : List String) : List Char :=
  '[' :: ([',', ' '].intercalate (l.map quoted) ++ [']'])

/-- an optional text: `Some(` and its quoted form and `)`, or `None` -/
def quotedOption : Option String → List Char
  | some s => ['S', 'o', 'm', 'e', '('] ++ quoted s ++ [')']
  | none => ['N', 'o', 'n', 'e']

end Sequitur.Text
