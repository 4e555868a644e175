import RowFormula.CommandLine.Arguments
import RowFormula.CommandLine.Report
import RowFormula.Formula.Json
import RowFormula.Json.Reader
import RowFormula.Scenario.Json

/-! The program: evaluates a formula, or fires an event, on an entity graph read from
files.
-/

namespace RowFormula.CommandLine

/-- Work that may end with an error message. -/
abbrev Work := ExceptT String IO

def readText (what path : String) : Work String := do
  match ← (IO.FS.readFile path).toBaseIO with
  | .ok text => return text
  | .error e => throw ("Failed to read " ++ what ++ " '" ++ path ++ "': " ++ toString e)

def readJson {α : Type} (what path : String) (read : Json → Option α) : Work α := do
  match (Json.ofText? (← readText (what ++ " file") path)).bind read with
  | some a => return a
  | none => throw ("Failed to parse " ++ what ++ " JSON")

def readOptional {α : Type} (what : String) (path : Option String) (read : Json → Option α)
    (absent : α) : Work α :=
  match path with
  | some path => readJson what path read
  | none => return absent

/-- An engine with a log over a scenario, and the state it starts from. -/
def buildEngine (config : EngineConfig) (scenario : Scenario) : Work (Engine × EngineState) :=
  match scenario.load with
  | .ok (catalog, rows) => return ({ catalog, config, logAccess := .working }, { rows := rows })
  | .error e => throw e.message

def printLines (lines : List String) : Work Unit :=
  lines.forM fun line => IO.println line

def runEvaluate (config : EngineConfig) (formulaPath : String)
    (scenarioPath bindingsPath : Option String) (debug : Bool) : Work Unit := do
  let formula ← readJson "formula" formulaPath Formula.ofJson?
  let bindings ← readOptional "bindings" bindingsPath VariableBindings.ofJson? .empty
  let scenario ← readOptional "scenario" scenarioPath Scenario.ofJson? {}
  let (engine, state) ← buildEngine config scenario
  printLines ["Evaluating formula '" ++ formula.id ++ "'..."]
  let (result, log) := engine.calculate { formula, bindings, debug := debug } state
  match result with
  | .error e => throw ("Evaluation failed: " ++ e.message)
  | .ok result =>
    printLines (resultLines formula result log ++ ["", "--- Performance Summary ---"])

def runTrigger (config : EngineConfig) (scenarioPath : String) (event : LifecycleEvent)
    (entity : String) (rows : List String) : Work Unit := do
  let scenario ← readJson "scenario" scenarioPath Scenario.ofJson?
  let rows := if rows.isEmpty then scenario.rowIds entity else rows
  let (engine, state) ← buildEngine config scenario
  printLines ["Firing " ++ event.name ++ " on " ++ toString rows.length ++ " row(s) of '"
    ++ entity ++ "'..."]
  let (report, state) := engine.trigger event entity rows state
  match report.error with
  | some message => throw message
  | none => printLines (reportLines report state.log)

def run (invocation : Invocation) : Work Unit := do
  let started ← IO.monoMsNow
  let config ← readOptional "config" invocation.config EngineConfig.ofJson? {}
  match invocation.command with
  | .evaluate formula scenario bindings debug =>
    runEvaluate config formula scenario bindings debug
  | .trigger scenario event entity rows => runTrigger config scenario event entity rows
  let elapsed := (← IO.monoMsNow) - started
  printLines ["Total Execution:      " ++ toString elapsed ++ "ms"]

end RowFormula.CommandLine

open RowFormula in
/-- Reads the arguments and runs the command. The exit code is 1 when the command fails,
and 2 when the arguments are not understood.
-/
def main (arguments : List String) : IO UInt32 := do
  match CommandLine.Invocation.ofArguments arguments with
  | .error e =>
    IO.eprintln ("error: " ++ e.message)
    return 2
  | .ok invocation =>
    match ← (CommandLine.run invocation).run with
    | .ok _ => return 0
    | .error message =>
      IO.eprintln ("\nError: " ++ message)
      return 1
