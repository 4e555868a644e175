import RowFormula.Json.Token

/-! Reading JSON text.

Tokens are taken one by one against the list of containers still open, so that text nested
without bound is read in bounded depth. A container nested more than `nestingLimit` deep
is read as unreadable.
-/

namespace RowFormula.Json

/-- How many containers may lie inside each other. -/
def nestingLimit : Nat := 127

/-- A container still open, with what it holds so far, newest first. -/
inductive Open where
  | array (before : List Json)
  /-- An object in which the value of `key` comes next. A key is `none` when it is
  unreadable.
  -/
  | object (before : List (Option String × Json)) (key : Option String)

/-- What a reader waits for inside the containers still open, innermost first. -/
inductive Waiting where
  /-- A value. -/
  | value (outer : List Open)
  /-- The first item of an array, or its end. -/
  | item (outer : List Open)
  /-- The first key of an object, or its end. -/
  | firstKey (outer : List Open)
  /-- A further key of an object. -/
  | key (outer : List Open) (before : List (Option String × Json))
  /-- The colon after a key. -/
  | colon (outer : List Open) (before : List (Option String × Json)) (key : Option String)
  /-- What may follow a finished value. -/
  | next (outer : List Open) (value : Json)

/-- A container closed inside others, unless that is too deep. -/
def closed (outer : List Open) (container : Json) : Waiting :=
  .next outer (if (outer.drop (nestingLimit - 1)).isEmpty then container else .unreadable)

/-- The fields of an object, `none` when some key is unreadable. -/
def fields? : List (Option String × Json) → Option (List (String × Json))
  | [] => some []
  | (some key, value) :: rest => (fields? rest).map ((key, value) :: ·)
  | (none, _) :: _ => none

/-- The object with the fields read, which are newest first. -/
def objectOf (before : List (Option String × Json)) : Json :=
  match fields? before.reverse with
  | some fields => .object fields
  | none => .unreadable

/-- The text that a token quotes, as a tree. -/
def textOf : Option String → Json
  | some s => .text s
  | none => .unreadable

/-- Takes the token at the start of a value. -/
def startValue (outer : List Open) : Token → Option Waiting
  | .scalar value => some (.next outer value)
  | .quoted value => some (.next outer (textOf value))
  | .openArray => some (.item outer)
  | .openObject => some (.firstKey outer)
  | _ => none

/-- Takes one token, `none` when it may not stand here. -/
def takeToken : Waiting → Token → Option Waiting
  | .value outer, token => startValue outer token
  | .item outer, .closeArray => some (closed outer (.array []))
  | .item outer, token => startValue (.array [] :: outer) token
  | .firstKey outer, .closeObject => some (closed outer (.object []))
  | .firstKey outer, .quoted name => some (.colon outer [] name)
  | .key outer before, .quoted name => some (.colon outer before name)
  | .colon outer before name, .colon => some (.value (.object before name :: outer))
  | .next (.array before :: outer) value, .comma =>
    some (.value (.array (value :: before) :: outer))
  | .next (.array before :: outer) value, .closeArray =>
    some (closed outer (.array (value :: before).reverse))
  | .next (.object before name :: outer) value, .comma =>
    some (.key outer ((name, value) :: before))
  | .next (.object before name :: outer) value, .closeObject =>
    some (closed outer (objectOf ((name, value) :: before)))
  | _, _ => none

/-- The tree that JSON text writes, `none` when the text is not JSON. -/
def ofText? (text : String) : Option Json := do
  match ← (← tokens? text).foldlM takeToken (.value []) with
  | .next [] value => some value
  | _ => none

end RowFormula.Json
