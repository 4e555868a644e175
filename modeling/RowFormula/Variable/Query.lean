import RowFormula.Rows.Access
import RowFormula.Variable.Error

/-! Reading rows call by call. What is asked next may depend on the answers so far, and the rows
may change between two calls, so that a query is kept apart from the rows that it is asked of.
-/

namespace RowFormula

/-- Calls that are made one after another to find something, with the rows that are noted as read
on the way.
-/
inductive Query (α : Type) where
  | done (outcome : Except ResolutionError α)
  /-- Notes that a row is read. -/
  | visit (rowId : String) (rest : Query α)
  | ask (call : ReadCall) (next : Except StoreError call.Answer → Query α)

/-- The outcome of a query, and the ids of the rows that were read, in order. Rows read before a
failure are kept.
-/
structure Reading (α : Type) where
  outcome : Except ResolutionError α
  rowIds : List String := []

/-- A reading after a row was read. -/
def Reading.after {α : Type} (rowId : String) (r : Reading α) : Reading α :=
  { r with rowIds := rowId :: r.rowIds }

namespace Query

variable {α β : Type}

/-- A value that is found without a call. -/
def pure (a : α) : Query α :=
  done (.ok a)

def fail (e : ResolutionError) : Query α :=
  done (.error e)

/-- A query followed by another that depends on what it found. -/
def bind : Query α → (α → Query β) → Query β
  | done (.ok a), next => next a
  | done (.error e), _ => done (.error e)
  | visit rowId rest, next => visit rowId (rest.bind next)
  | ask call answered, next => ask call fun answer => (answered answer).bind next

instance : Monad Query where
  pure := pure
  bind := bind

/-- Notes that a row is read. -/
def read (row : Row) : Query Unit :=
  visit row.id (pure ())

def ofStore (answer : Except StoreError α) : Query α :=
  done (answer.mapError .store)

/-- The answer to a call. -/
def call (call : ReadCall) : Query call.Answer :=
  ask call ofStore

/-- Asks for each item in turn, up to the first failure. -/
def forEach (query : α → Query β) : List α → Query (List β)
  | [] => pure []
  | item :: rest => do
    let first ← query item
    let others ← forEach query rest
    return first :: others

/-- What a query finds when all its calls are made on the same rows. -/
def against (a : RowAccess) : Query α → Reading α
  | done outcome => { outcome }
  | visit rowId rest => (rest.against a).after rowId
  | ask call next => (next (a.answer call)).against a

end Query

end RowFormula
