import RowFormula.Json.Basic
import RowFormula.Table

/-! Tables with text keys as JSON objects. -/

namespace RowFormula

variable {α : Type}

def Table.entries? (read : Json → Option α) : List (String × Json) → Option (List (String × α))
  | [] => some []
  | (key, json) :: rest =>
    match read json, entries? read rest with
    | some value, some others => some ((key, value) :: others)
    | _, _ => none

/-- The table that an object holds. Of a repeated key the last value counts, though every
value must be readable.
-/
def Table.ofJson? (read : Json → Option α) : Json → Option (Table String α)
  | .object fields => (Table.entries? read fields).map Table.ofList
  | _ => none

def Table.toJson (write : α → Json) (t : Table String α) : Json :=
  .object (t.entries.map fun entry => (entry.1, write entry.2))

end RowFormula
