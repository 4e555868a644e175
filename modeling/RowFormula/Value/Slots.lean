import RowFormula.Value.Basic

/-! The slots in which single values are stored, and the result types that choose among
them.
-/

namespace RowFormula

open Calendar

/-- The four slots of a stored value, of which at most one is meant to be filled. -/
structure ValueSlots where
  text : Option String := none
  number : Option Float := none
  date : Option Instant := none
  boolean : Option Bool := none

def ValueSlots.isEmpty (slots : ValueSlots) : Bool :=
  slots.text.isNone && slots.number.isNone && slots.date.isNone && slots.boolean.isNone

/-- The value in the slots: of several filled slots the number comes first, then the text,
then the date.
-/
def ValueSlots.toValue (slots : ValueSlots) : Value :=
  match slots.number, slots.text, slots.date, slots.boolean with
  | some x, _, _, _ => .number x
  | none, some s, _, _ => .text s
  | none, none, some d, _ => .date d
  | none, none, none, some b => .bool b
  | none, none, none, none => .null

/-- The type to which a formula's result is cast. -/
inductive ResultType where
  | number
  | boolean
  | string
  | date
  deriving Repr, DecidableEq

namespace ResultType

/-- Casts a value to the result type. Null stays null, and so does what is not a date
where a date is wanted.
-/
def cast : ResultType → Value → Value
  | _, .null => .null
  | number, v => .number v.toNumber
  | boolean, v => .bool v.isTruthy
  | string, v => .text v.toText
  | date, v => (v.toDate?.map Value.date).getD .null

/-- Puts a value into the slot of the result type. Null fills no slot. -/
def toSlots : ResultType → Value → ValueSlots
  | _, .null => {}
  | number, v => { number := some v.toNumber }
  | boolean, v => { boolean := some v.isTruthy }
  | string, v => { text := some v.toText }
  | date, v => { date := v.toDate? }

def name : ResultType → String
  | number => "number"
  | boolean => "boolean"
  | string => "string"
  | date => "date"

def ofName? : String → Option ResultType
  | "number" => some number
  | "boolean" => some boolean
  | "string" => some string
  | "date" => some date
  | _ => none

end ResultType

end RowFormula
