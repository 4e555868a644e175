import RowFormula.Formula.Trace

/-! The execution log: one entry for each recorded evaluation.

An entry is created before its formula is evaluated and completed afterwards with the
result or the error. Entries are numbered from 1 and never removed.
-/

namespace RowFormula

/-- Who or what causes an evaluation. -/
structure TriggerContext where
  userId : Option String := none
  tenantId : Option String := none
  /-- The lifecycle event that fired, if one did. -/
  originalTrigger : Option CalculationTrigger := none
  /-- Why the evaluation runs: the name of a trigger, or `MANUAL`. -/
  triggeredBy : String := "MANUAL"
  /-- The stored value that the result is written to. -/
  rowValueId : Option String := none

/-- What is known when an entry is created. -/
structure NewLogEntry where
  formulaId : String
  context : TriggerContext
  expression : String
  components : List Component
  /-- The rows read for the formula's variables. -/
  rowIds : List String

/-- How an evaluation ended. -/
structure LogCompletion where
  /-- The time taken, in milliseconds. -/
  duration : Nat
  result : Option Value
  error : Option String

/-- An entry of the log. The time of its creation is left out: it is read off a clock, and nothing
that is asked of a log depends on it.
-/
structure LogEntry where
  id : Nat
  entry : NewLogEntry
  result : Option Value := none
  error : Option String := none
  duration : Option Nat := none

def LogEntry.completed (e : LogEntry) (c : LogCompletion) : LogEntry :=
  { e with result := c.result, error := c.error, duration := some c.duration }

/-- A log, oldest entry first. -/
@[ext]
structure ExecutionLog where
  entries : List LogEntry := []
  /-- Ids are given out from 1 on, and entries stay in the order of their ids. -/
  numbered : entries.map (·.id) = List.range' 1 entries.length := by rfl

/-- Why a log entry cannot be completed: no entry has the id. -/
structure EntryNotFound where
  id : Nat
  deriving Repr, DecidableEq

def EntryNotFound.message (e : EntryNotFound) : String :=
  "Execution log entry " ++ toString e.id ++ " not found"

namespace ExecutionLog

/-- The log without entries. -/
def empty : ExecutionLog := {}

/-- Numbering goes on with an entry that has the next number. -/
theorem numbered_append (log : ExecutionLog) {entry : LogEntry}
    (next : entry.id = log.entries.length + 1)
    : (log.entries ++ [entry]).map (·.id)
      = List.range' 1 (log.entries ++ [entry]).length := by
  have position : 1 + 1 * log.entries.length = log.entries.length + 1 := by omega
  simp only [List.map_append, List.length_append, List.map_singleton, List.length_singleton,
    List.range'_concat, next, position, log.numbered]

def create (log : ExecutionLog) (entry : NewLogEntry) : Nat × ExecutionLog :=
  let id := log.entries.length + 1
  (id, ⟨log.entries ++ [{ id, entry }], log.numbered_append rfl⟩)

/-- Completes the first entry with an id, if there is one. -/
def completeFirst (id : Nat) (c : LogCompletion) : List LogEntry → List LogEntry
  | [] => []
  | e :: rest => if e.id = id then e.completed c :: rest else e :: completeFirst id c rest

theorem ids_completeFirst (id : Nat) (c : LogCompletion) (entries : List LogEntry)
    : (completeFirst id c entries).map (·.id) = entries.map (·.id) := by
  induction entries with
  | nil => rfl
  | cons e rest ih =>
      rw [completeFirst]
      split
      · rfl
      · rw [List.map_cons, List.map_cons, ih]

/-- The log in which the entry with an id is completed, if there is one. -/
def complete (log : ExecutionLog) (id : Nat) (c : LogCompletion) : ExecutionLog where
  entries := completeFirst id c log.entries
  numbered := by
    have length := congrArg List.length (ids_completeFirst id c log.entries)
    rw [List.length_map, List.length_map] at length
    rw [ids_completeFirst, length, log.numbered]

/-- Completes the entry with an id; an entry completed before is completed anew. -/
def update (log : ExecutionLog) (id : Nat) (c : LogCompletion)
    : Except EntryNotFound ExecutionLog :=
  if log.entries.any (·.id == id) then .ok (log.complete id c) else .error ⟨id⟩

def get? (log : ExecutionLog) (id : Nat) : Option LogEntry :=
  log.entries.find? (·.id == id)

def maxOffset : Nat := UInt64.size - 1

/-- How many entries come before a page. Pages are numbered from 1, and page 0 is the
first page. The offset stops at the largest one.
-/
def pageOffset (page size : UInt64) : Nat :=
  min ((page.toNat - 1) * size.toNat) maxOffset

/-- A page of the entries of a formula, newest first. -/
def page (log : ExecutionLog) (formulaId : String) (page size : UInt64) : List LogEntry :=
  let matching := log.entries.reverse.filter (·.entry.formulaId == formulaId)
  (matching.drop (pageOffset page size)).take size.toNat

def touchingRow (log : ExecutionLog) (rowId : String) : List LogEntry :=
  log.entries.filter (·.entry.rowIds.contains rowId)

end ExecutionLog

end RowFormula
