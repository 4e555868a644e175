import RowFormula.Json.Basic

/-! Records and named choices in JSON.

A record is an object, or an array that lists its fields in the order in which they are
declared. Fields that are not declared are ignored; a declared field may not be given
twice.
-/

namespace RowFormula.Json

/-- The declared fields of a record, as given. -/
structure Record where
  /-- The tree given for a field. -/
  field : String → Option Json
  /-- Whether the record was given as an array. -/
  listed : Bool

/-- Reads a tree as a record with the declared field names. -/
def record? (names : List String) : Json → Option Record
  | .object fields =>
    if names.all fun name => fields.countP (·.1 == name) ≤ 1 then
      some { field := fun name => fields.lookup name, listed := false }
    else none
  | .array items =>
    if items.length ≤ names.length then
      some { field := fun name => (names.zip items).lookup name, listed := true }
    else none
  | _ => none

variable {α : Type}

def Record.required (r : Record) (name : String) (read : Json → Option α) : Option α :=
  (r.field name).bind read

def Record.defaulted (r : Record) (name : String) (read : Json → Option α) (default : α)
    : Option α :=
  match r.field name with
  | none => some default
  | some json => read json

/-- Reads `null` as nothing and any other tree as a value. -/
def nullable (read : Json → Option α) : Json → Option (Option α)
  | .null => some none
  | json => (read json).map some

/-- A field that may be `null` and may be left out. -/
def Record.optional (r : Record) (name : String) (read : Json → Option α)
    : Option (Option α) :=
  r.defaulted name (nullable read) none

/-- A field that may be `null`, and may be left out only where fields are named. -/
def Record.nullable (r : Record) (name : String) (read : Json → Option α)
    : Option (Option α) :=
  match r.field name with
  | none => if r.listed then none else some none
  | some json => Json.nullable read json

/-- Reads the items of an array one by one. -/
def items? (read : Json → Option α) : Json → Option (List α)
  | .array items => items.mapM read
  | _ => none

/-- Reads a name from a fixed list: a text, or an object whose only key is the name and
whose value is `null`. With `emptyAllowed` that value may also be an empty object.
-/
def choice? (emptyAllowed : Bool) (ofName : String → Option α) : Json → Option α
  | .text name => ofName name
  | .object [(name, .null)] => ofName name
  | .object [(name, .object [])] => if emptyAllowed then ofName name else none
  | _ => none

/-- Splits off the tag of a tagged record: the value of the tag's key, which must be given
once, or the first item of an array. The tag must be a text.
-/
def tagged? (tag : String) : Json → Option (String × Json)
  | .array (.text name :: rest) => some (name, .array rest)
  | .object fields =>
    match fields.filter (·.1 == tag) with
    | [(_, .text name)] => some (name, .object (fields.filter (·.1 != tag)))
    | _ => none
  | _ => none

/-- The fields of an object whose values are given, without the others. -/
def objectOfSome (fields : List (String × Option Json)) : Json :=
  .object (fields.filterMap fun (name, value) => value.map (name, ·))

/-- The tree of an optional value, `null` for nothing. -/
def ofOption (write : α → Json) : Option α → Json
  | none => .null
  | some a => write a

end RowFormula.Json
