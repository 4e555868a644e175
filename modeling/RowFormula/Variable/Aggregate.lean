import RowFormula.Variable.Error

/-! Functions that reduce several values to one. Lists are opened and nulls skipped first.
-/

namespace RowFormula

namespace Value

mutual

/-- The values inside a value: those of a list's items at every depth, and otherwise the
value itself, except null.
-/
def leaves : Value → List Value
  | list items => leavesOf items
  | null => []
  | v => [v]

/-- The values inside values, in order. -/
def leavesOf : List Value → List Value
  | [] => []
  | item :: rest => item.leaves ++ leavesOf rest

end

end Value

/-- A function that reduces values to one. -/
inductive Aggregator where
  | count
  | sum
  | avg
  | min
  | max
  | first
  | last
  | join
  deriving Repr, DecidableEq

namespace Aggregator

/-- The function with a name. The name `inverse` is reserved. -/
def ofName (name : String) : Except ResolutionError Aggregator :=
  match name with
  | "count" => .ok count
  | "sum" => .ok sum
  | "avg" => .ok avg
  | "min" => .ok min
  | "max" => .ok max
  | "first" => .ok first
  | "last" => .ok last
  | "join" => .ok join
  | "inverse" => .error (.notImplemented name)
  | _ => .error (.unsupportedAggregator name)

/-- The finite numbers that values are read as. -/
def numbers (items : List Value) : List Float :=
  (items.map Value.toNumber).filter Float.isFinite

/-- The sum of numbers from left to right, starting from minus zero, which is neutral for
every number.
-/
def total (xs : List Float) : Float :=
  xs.foldl (· + ·) (-0.0)

/-- The item that no later one beats, null when there are none. -/
def best {α : Type} (better : α → α → Bool) (write : α → Value) : List α → Value
  | [] => .null
  | x :: rest => write (rest.foldl (fun kept y => if better y kept then y else kept) x)

def isDate : Value → Bool
  | .date _ => true
  | _ => false

/-- The least or the greatest item: one of the dates where all items are dates, and
otherwise one of the numbers that items are read as.
-/
def extreme (better : Float → Float → Bool) (items : List Value) : Value :=
  if !items.isEmpty && items.all isDate then
    best (fun a b => better a.toNumber b.toNumber) id items
  else best better .number (numbers items)

/-- Reduces items that hold neither lists nor nulls. -/
def reduce (f : Aggregator) (items : List Value) : Value :=
  match f with
  | count => .number (Float.ofNat items.length)
  | sum => .number (total (numbers items))
  | avg =>
    match numbers items with
    | [] => .null
    | xs => .number (total xs / Float.ofNat xs.length)
  | min => extreme (fun a b => a < b) items
  | max => extreme (fun a b => b < a) items
  | first => items.head?.getD .null
  | last => items.getLast?.getD .null
  | join => .text (String.intercalate ", " (items.map Value.toText))

def apply (f : Aggregator) (values : List Value) : Value :=
  f.reduce (Value.leavesOf values)

end Aggregator

end RowFormula
