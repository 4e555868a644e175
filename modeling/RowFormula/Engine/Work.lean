import RowFormula.Engine.Basic
import RowFormula.Variable.Resolution

/-! The work of an engine, call by call. Several workers may share the rows and the log: between
two calls of one the others may make theirs, so that work is kept apart from the state that it is
done on.
-/

namespace RowFormula

/-- A call to the rows or to the log. The calls to the log are also listed where an evaluation is
not recorded; there they change nothing.
-/
inductive Work.Call where
  | read (call : ReadCall)
  | beginEntry (request : CalculationRequest) (trace : ExpressionTrace)
  | completeEntry (id : Option Nat) (outcome : Except CalculationError Value)
  /-- Stores a value, which the journal does not have yet. -/
  | setValue (write : WriteRecord)
  /-- Adds the value that was stored to the journal. -/
  | noteWrite (write : WriteRecord)

abbrev Work.Call.Answer : Work.Call → Type
  | read call => Except StoreError call.Answer
  | beginEntry .. => Option Nat
  | completeEntry .. => Unit
  | setValue _ => Except StoreError Unit
  | noteWrite _ => Unit

/-- Makes a call, which happens at once. -/
def Engine.perform (e : Engine) : (call : Work.Call) → EngineState → call.Answer × EngineState
  | .read call, s => (RowAccess.answer ⟨s.rows, e.outage⟩ call, s)
  | .beginEntry request trace, s =>
    let (id, log) := e.beginEntry request trace s.log
    (id, { s with log })
  | .completeEntry id outcome, s => ((), { s with log := e.completeEntry id outcome s.log })
  | .setValue write, s =>
    match RowAccess.beginWrite ⟨s.rows, e.outage⟩ write with
    | .ok rows => (.ok (), { s with rows })
    | .error cause => (.error cause, s)
  | .noteWrite write, s => ((), { s with rows := s.rows.noteWrite write })

/-- Calls that are made one after another, each of which may depend on the answers so far. -/
inductive Work (α : Type) where
  | done (result : α)
  | call (call : Work.Call) (next : call.Answer → Work α)

namespace Work

variable {α β : Type}

/-- Work that is followed by more, which depends on its result. -/
def bind : Work α → (α → Work β) → Work β
  | done result, next => next result
  | call c answered, next => call c fun answer => (answered answer).bind next

instance : Monad Work where
  pure := done
  bind := bind

def ask (c : Call) : Work c.Answer :=
  call c done

/-- Makes the calls of a query. -/
def ofQuery : Query α → Work (Reading α)
  | .done outcome => done { outcome }
  | .visit rowId rest => do return (← ofQuery rest).after rowId
  | .ask c next => call (.read c) fun answer => ofQuery (next answer)

/-- Stores a value and notes it in the journal. -/
def write (w : WriteRecord) : Work (Except StoreError Unit) := do
  match ← ask (.setValue w) with
  | .error cause => return .error cause
  | .ok () =>
    ask (.noteWrite w)
    return .ok ()

-----------------------------------------------------------------------------------------
-- Doing work
-----------------------------------------------------------------------------------------

/-- Does work from beginning to end while nothing else happens. -/
def run (e : Engine) : Work α → EngineState → α × EngineState
  | done result, s => (result, s)
  | call c next, s =>
    let (answer, s) := e.perform c s
    (next answer).run e s

/-- Makes the next call of a worker, unless its work is done. -/
def turn (e : Engine) : Work α → EngineState → Work α × EngineState
  | done result, s => (done result, s)
  | call c next, s =>
    let (answer, s) := e.perform c s
    (next answer, s)

/-- Gives a turn to the worker at a place, if there is one. -/
def turnAt (e : Engine) : Nat → List (Work α) → EngineState → List (Work α) × EngineState
  | _, [], s => ([], s)
  | 0, worker :: others, s =>
    let (worker, s) := worker.turn e s
    (worker :: others, s)
  | place + 1, worker :: others, s =>
    let (others, s) := turnAt e place others s
    (worker :: others, s)

/-- Gives turns to the workers at the places that a schedule lists. -/
def takeTurns (e : Engine)
    : (schedule : List Nat) → List (Work α) → EngineState → List (Work α) × EngineState
  | [], workers, s => (workers, s)
  | place :: later, workers, s =>
    let (workers, s) := turnAt e place workers s
    takeTurns e later workers s

/-- Workers do their work one after another. -/
def runAll (e : Engine) : List (Work α) → EngineState → List α × EngineState
  | [], s => ([], s)
  | worker :: others, s =>
    let (result, s) := worker.run e s
    let (results, s) := runAll e others s
    (result :: results, s)

/-- Workers take turns as a schedule says. Those that are not done by its end are finished one
after another, so that every way to take turns is that of some schedule.
-/
def interleave (e : Engine) (schedule : List Nat) (workers : List (Work α)) (s : EngineState)
    : List α × EngineState :=
  let (workers, s) := takeTurns e schedule workers s
  runAll e workers s

end Work

end RowFormula
