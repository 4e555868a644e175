/-! JSON trees, which keep the order of an object's fields and its repeated keys. -/

namespace RowFormula

/-- A JSON tree. Integers are those numerals without point and exponent that fit 64 bits;
every other number is a double.

`unreadable` stands for a value that follows the grammar but that nothing can be read
from: a number beyond the doubles, a text with half of a surrogate pair, or a container
nested too deep. It is harmless where a value is ignored.
-/
inductive Json where
  | null
  | bool (value : Bool)
  | integer (value : Int)
  | real (value : Float)
  | text (value : String)
  | array (items : List Json)
  | object (fields : List (String × Json))
  | unreadable
  deriving Inhabited

namespace Json

mutual

def isReadable : Json → Bool
  | .array items => allReadable items
  | .object fields => allFieldsReadable fields
  | .unreadable => false
  | _ => true

def allReadable : List Json → Bool
  | [] => true
  | item :: rest => item.isReadable && allReadable rest

/-- Whether no part of any field's tree is unreadable. -/
def allFieldsReadable : List (String × Json) → Bool
  | [] => true
  | (_, value) :: rest => value.isReadable && allFieldsReadable rest

end

/-- The tree of a number: a double that has no numeral is written as `null`. -/
def ofFloat (x : Float) : Json :=
  if x.isFinite then .real x else .null

/-- The finite double that a tree holds. An integer is rounded to the nearest double. -/
def toFloat? : Json → Option Float
  | .real x => if x.isFinite then some x else none
  | .integer n =>
    let x := Float.ofInt n
    if x.isFinite then some x else none
  | _ => none

def toText? : Json → Option String
  | .text s => some s
  | _ => none

def toBool? : Json → Option Bool
  | .bool b => some b
  | _ => none

def toNat? (bound : Nat) : Json → Option Nat
  | .integer (.ofNat n) => if n < bound then some n else none
  | _ => none

end Json

end RowFormula
