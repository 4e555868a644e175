import RowFormula.Engine.Calculation
import RowFormula.Text.Blank

/-! Recomputing properties when rows go through their lifecycle.

For each property with a formula and each row it is decided whether the event requires a
recomputation; if so the formula is calculated on the row and the result written back. A
pair that fails is reported and leaves the other pairs alone.
-/

namespace RowFormula

/-- An event in the life of a row. -/
inductive LifecycleEvent where
  | beforeListed
  | afterCreated
  | beforeViewed
  | afterUpdated
  deriving Repr, DecidableEq

namespace LifecycleEvent

def trigger : LifecycleEvent → CalculationTrigger
  | beforeListed => .beforeListed
  | afterCreated => .afterCreated
  | beforeViewed => .beforeViewed
  | afterUpdated => .afterUpdated

def name (event : LifecycleEvent) : String :=
  event.trigger.name

/-- A text as the name of an event: without the blanks around it, in upper case, and with
underscores for hyphens.
-/
def normalized (text : String) : String :=
  String.ofList ((Text.trimmed text.toList).map fun c =>
    if c = '-' then '_' else Text.upperAscii c)

/-- Reads the name of an event; a text that names none is returned as it was understood.
-/
def ofText (text : String) : Except String LifecycleEvent :=
  match normalized text with
  | "BEFORE_LISTED" => .ok beforeListed
  | "AFTER_CREATED" => .ok afterCreated
  | "BEFORE_VIEWED" => .ok beforeViewed
  | "AFTER_UPDATED" => .ok afterUpdated
  | unknown => .error unknown

/-- The text of the error for an unknown event. -/
def unknownMessage (unknown : String) : String :=
  "Unknown lifecycle event '" ++ unknown ++ "'"

end LifecycleEvent

/-- Whether a property is recomputed, and on account of which trigger. -/
inductive TriggerDecision where
  | calculate (triggeredBy : CalculationTrigger)
  | skip
  deriving Repr, DecidableEq

namespace TriggerDecision

/-- Whether the decision depends on the stored value. -/
def readsStored (configured firing : CalculationTrigger) : Bool :=
  configured == .ifUnset && configured ≠ firing

/-- Decides from the configured and the firing trigger: equal triggers recompute, then
`ALWAYS` does, and `IF_UNSET` does when the stored value is null. The stored value counts
in this last case only.
-/
def decide (configured firing : CalculationTrigger) (stored : Except StoreError Value)
    : Except StoreError TriggerDecision :=
  if configured = firing then .ok (.calculate firing)
  else
    match configured with
    | .always => .ok (.calculate .always)
    | .ifUnset => stored.map fun v => if v.isNull then .calculate .ifUnset else .skip
    | _ => .ok .skip

end TriggerDecision

/-- Why a property of a row is not recomputed. -/
inductive TriggerError where
  | calculation (cause : CalculationError)
  | store (cause : StoreError)

def TriggerError.message : TriggerError → String
  | calculation cause => cause.message
  | store cause => "Failed to read or write the row value: " ++ cause.message

/-- What happened to a property of a row. -/
inductive PairStatus where
  | written (value : Value) (triggeredBy : CalculationTrigger)
  | skipped
  | failed (error : String)

/-- A property, a row, and what happened to them. -/
structure PairOutcome where
  property : String
  row : String
  status : PairStatus

/-- What happened when an event fired. -/
structure TriggerReport where
  event : LifecycleEvent
  entity : String
  outcomes : List PairOutcome
  /-- Why nothing was done at all. -/
  error : Option String := none

namespace PairStatus

def isWritten : PairStatus → Bool
  | written .. => true
  | _ => false

def isSkipped : PairStatus → Bool
  | skipped => true
  | _ => false

def isFailed : PairStatus → Bool
  | failed _ => true
  | _ => false

/-- The value that was written, if one was. -/
def value? : PairStatus → Option Value
  | written v _ => some v
  | _ => none

end PairStatus

namespace TriggerReport

/-- The value written for a property of a row, by the first outcome about them. -/
def value? (r : TriggerReport) (property row : String) : Option Value :=
  (r.outcomes.find? fun o => o.property == property && o.row == row).bind (·.status.value?)

def writtenCount (r : TriggerReport) : Nat :=
  r.outcomes.countP (·.status.isWritten)

/-- The number of pairs for which nothing was required. -/
def skippedCount (r : TriggerReport) : Nat :=
  r.outcomes.countP (·.status.isSkipped)

def failedCount (r : TriggerReport) : Nat :=
  r.outcomes.countP (·.status.isFailed)

end TriggerReport

namespace Engine

/-- A property with its formula, and a row. -/
structure Pair where
  property : PropertySchema
  formula : Formula
  row : String

/-- The request to calculate a property's formula on a row. -/
def pairRequest (event : LifecycleEvent) (entity : String) (p : Pair)
    (triggeredBy : CalculationTrigger) : CalculationRequest :=
  { formula := p.formula
    bindings := .ofRow entity p.row
    context := {
      originalTrigger := some event.trigger
      triggeredBy := triggeredBy.name
      rowValueId := some (entity ++ "/" ++ p.row ++ "/" ++ p.property.name) } }

/-- Calculates the formula of a pair and writes the result. -/
def recalculation (e : Engine) (event : LifecycleEvent) (entity : String) (p : Pair)
    (triggeredBy : CalculationTrigger) : Work PairStatus := do
  match ← e.calculation (pairRequest event entity p triggeredBy) with
  | .error cause => return .failed (TriggerError.calculation cause).message
  | .ok result =>
    let slots := p.formula.resultAs.toSlots result.value
    match ← Work.write ⟨entity, p.row, p.property.name, slots⟩ with
    | .error cause => return .failed (TriggerError.store cause).message
    | .ok () => return .written result.value triggeredBy

/-- Reads the stored value of a pair where the decision depends on it. Elsewhere the rows are not
asked, and null stands for it.
-/
def consultation (event : LifecycleEvent) (entity : String) (p : Pair)
    : Work (Except StoreError Value) :=
  if TriggerDecision.readsStored p.formula.trigger event.trigger then
    Work.ask (.read (.readProperty entity p.row p.property.name))
  else pure (.ok .null)

/-- Recomputes a pair if that is required. -/
def recomputation (e : Engine) (event : LifecycleEvent) (entity : String) (p : Pair)
    : Work PairStatus := do
  let stored ← consultation event entity p
  match TriggerDecision.decide p.formula.trigger event.trigger stored with
  | .error cause => return .failed (TriggerError.store cause).message
  | .ok .skip => return .skipped
  | .ok (.calculate triggeredBy) => e.recalculation event entity p triggeredBy

/-- The work for a pair, which tells what happened to it. -/
def pairWork (e : Engine) (event : LifecycleEvent) (entity : String) (p : Pair)
    : Work PairOutcome := do
  let status ← e.recomputation event entity p
  return ⟨p.property.name, p.row, status⟩

/-- Processes a pair while nothing else happens. -/
def processPair (e : Engine) (event : LifecycleEvent) (entity : String) (p : Pair)
    (s : EngineState) : PairOutcome × EngineState :=
  (e.pairWork event entity p).run e s

/-- Processes pairs one after another. -/
def processPairs (e : Engine) (event : LifecycleEvent) (entity : String)
    : List Pair → EngineState → List PairOutcome × EngineState
  | [], s => ([], s)
  | p :: rest, s =>
    let (outcome, s) := e.processPair event entity p s
    let (outcomes, s) := e.processPairs event entity rest s
    (outcome :: outcomes, s)

/-- The pairs of an entity's computed properties and some rows, property by property. -/
def pairs (schema : EntitySchema) (rows : List String) : List Pair :=
  schema.formulaProperties.flatMap fun (property, formula) =>
    rows.map fun row => { property := property, formula := formula, row := row }

/-- Processes pairs. An engine that may work in parallel takes them at the same time, with a worker
for each, whose turns are given by a schedule; otherwise they are taken one after another. A limit
on the number of workers only leaves schedules out.
-/
def fanOut (e : Engine) (event : LifecycleEvent) (entity : String) (pairs : List Pair)
    (schedule : List Nat) (s : EngineState) : List PairOutcome × EngineState :=
  if e.config.parallel then
    Work.interleave e schedule (pairs.map (e.pairWork event entity)) s
  else e.processPairs event entity pairs s

/-- Recomputes the properties of rows for which an event requires it. A formula may read what
another pair writes, so that the report may depend on the schedule of an engine that works in
parallel. Without a schedule pairs are processed one after another.
-/
def trigger (e : Engine) (event : LifecycleEvent) (entity : String) (rows : List String)
    (s : EngineState) (schedule : List Nat := []) : TriggerReport × EngineState :=
  match e.catalog.entity entity with
  | .error cause => ({ event, entity, outcomes := [], error := some cause.message }, s)
  | .ok schema =>
    let (outcomes, s) := e.fanOut event schema.name (pairs schema rows) schedule s
    ({ event, entity := schema.name, outcomes }, s)

end Engine

end RowFormula
