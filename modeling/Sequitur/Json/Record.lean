/-
Records in JSON.

A record is written as an object with a fixed list of fields. It is read from an object with these fields in any order,
each at most once and other fields passed over, or from an array with exactly one item for each field. The functions
ending in `?` read one field; all of them refuse values of another kind.
-/
import Sequitur.Json

namespace Sequitur.Json

/-- the values of the named fields, in the order of the names -/
def record? (names : List String) : Json → Option (List (Option Json))
  | obj fields =>
    if names.all fun n => (fields.filter fun f => f.1 == n).length ≤ 1 then
      some (names.map fun n => fields.lookup n)
    else none
  | arr items => if items.length = names.length then some (items.map some) else none
  | _ => none

def bool? : Json → Option Bool
  | bool b => some b
  | _ => none

def str? : Json → Option String
  | str s => some s
  | _ => none

/-- a natural number of at most 64 bits -/
def nat64? : Json → Option UInt64
  | nat n => if n < UInt64.size then some (UInt64.ofNat n) else none
  | _ => none

def list? (f : Json → Option α) : Json → Option (List α)
  | arr items => items.mapM f
  | _ => none

/-- a field that has to be there -/
def required (f : Json → Option α) (field : Option Json) : Option α := field.bind f

/-- a field that may be missing or null -/
def optional (f : Json → Option α) : Option Json → Option (Option α)
  | none => some none
  | some null => some none
  | some v => (f v).map some

end Sequitur.Json
