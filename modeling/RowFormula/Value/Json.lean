import RowFormula.Json.Record
import RowFormula.Value.Slots

/-! Values and slots as JSON.

A JSON text is always read as text, even when it looks like a date; where a date is stored
it is written in full and read back on demand.
-/

namespace RowFormula

open Calendar

namespace Value

mutual

def toJson : Value → Json
  | null => .null
  | number x => Json.ofFloat x
  | bool b => .bool b
  | text s => .text s
  | date d => .text d.exactText
  | list items => .array (itemsToJson items)
  | range lower upper => .object [("from", lower.toJson), ("to", upper.toJson)]

def itemsToJson : List Value → List Json
  | [] => []
  | item :: rest => item.toJson :: itemsToJson rest

end

mutual

/-- The value of a tree that is readable throughout. An object must have the two ends of a
range.
-/
def ofReadable? : Json → Option Value
  | .null => some .null
  | .bool b => some (.bool b)
  | .integer n => (Json.toFloat? (.integer n)).map .number
  | .real x => (Json.toFloat? (.real x)).map .number
  | .text s => some (.text s)
  | .array items => (itemsOf? items).map .list
  | .object fields =>
    match ends? fields with
    | some (some lower, some upper) => some (.range lower upper)
    | _ => none
  | .unreadable => none

def itemsOf? : List Json → Option (List Value)
  | [] => some []
  | item :: rest =>
    match ofReadable? item, itemsOf? rest with
    | some item, some rest => some (item :: rest)
    | _, _ => none

/-- The ends of a range among an object's fields, none of which may be given twice. -/
def ends? : List (String × Json) → Option (Option Value × Option Value)
  | [] => some (none, none)
  | (name, value) :: rest =>
    match name, ends? rest with
    | "from", some (none, upper) => (ofReadable? value).map fun lower => (some lower, upper)
    | "from", _ => none
    | "to", some (lower, none) => (ofReadable? value).map fun upper => (lower, some upper)
    | "to", _ => none
    | _, found => found

end

/-- The value of a tree, none of whose parts may be unreadable. -/
def ofJson? (json : Json) : Option Value :=
  if json.isReadable then ofReadable? json else none

end Value

/-- The tree of slots, with the filled ones only. -/
def ValueSlots.toJson (slots : ValueSlots) : Json :=
  Json.objectOfSome [
    ("textValue", slots.text.map .text),
    ("numberValue", slots.number.map Json.ofFloat),
    ("dateValue", slots.date.map fun d => .text d.exactText),
    ("booleanValue", slots.boolean.map .bool)]

def ValueSlots.ofJson? (json : Json) : Option ValueSlots := do
  let r ← Json.record? ["textValue", "numberValue", "dateValue", "booleanValue"] json
  return {
    text := ← r.optional "textValue" Json.toText?
    number := ← r.optional "numberValue" Json.toFloat?
    date := ← r.optional "dateValue" fun j => j.toText?.bind zonedInstant?
    boolean := ← r.optional "booleanValue" Json.toBool? }

def ResultType.ofJson? : Json → Option ResultType :=
  Json.choice? false ResultType.ofName?

end RowFormula
