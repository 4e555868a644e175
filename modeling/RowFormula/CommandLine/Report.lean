import RowFormula.Engine.Trigger

/-! The lines that the program prints about its results. -/

namespace RowFormula.CommandLine

/-- The name of a result type as it is shown. -/
def typeTitle : ResultType → String
  | .number => "Number"
  | .boolean => "Boolean"
  | .string => "String"
  | .date => "Date"

def resultLines (f : Formula) (r : EndResult) (log : ExecutionLog) : List String :=
  let rows := if r.rowIds.isEmpty then [] else
    ["  -> Rows read: " ++ String.intercalate ", " r.rowIds]
  let entry := match r.logId.bind log.get? with
    | some entry =>
      ["  -> Logged as entry " ++ toString entry.id ++ " ("
        ++ toString (entry.duration.getD 0) ++ " ms)"]
    | none => []
  ["  -> Result (" ++ typeTitle f.resultAs ++ "): " ++ r.value.toText,
    "  -> Expression: " ++ r.expression] ++ rows ++ entry

def outcomeLine (o : PairOutcome) : String :=
  "  " ++ o.row ++ "." ++ o.property ++
    match o.status with
    | .written v triggeredBy => " = " ++ v.toText ++ " (" ++ triggeredBy.name ++ ")"
    | .skipped => " skipped"
    | .failed error => " failed: " ++ error

def reportLines (r : TriggerReport) (log : ExecutionLog) : List String :=
  r.outcomes.map outcomeLine ++
    ["", "--- Trigger Summary ---",
      "Written:              " ++ toString r.writtenCount,
      "Skipped:              " ++ toString r.skippedCount,
      "Failed:               " ++ toString r.failedCount,
      "Log Entries:          " ++ toString log.entries.length]

end RowFormula.CommandLine
