import RowFormula.Json.Record

/-! Settings of an engine. -/

namespace RowFormula

/-- Settings of an engine, all of which have defaults. -/
structure EngineConfig where
  /-- Whether rows may be processed at the same time. -/
  parallel : Bool := true
  /-- The number of workers, if it is fixed. -/
  numThreads : Option Nat := none
  /-- What traces show for a variable without a value. -/
  unsetDisplay : String := "<unset>"
  deriving Repr, DecidableEq

def EngineConfig.ofJson? (json : Json) : Option EngineConfig := do
  let r ← Json.record? ["parallel", "numThreads", "unsetDisplay"] json
  let default : EngineConfig := {}
  return {
    parallel := ← r.defaulted "parallel" Json.toBool? default.parallel
    numThreads := ← r.optional "numThreads" (Json.toNat? UInt64.size)
    unsetDisplay := ← r.defaulted "unsetDisplay" Json.toText? default.unsetDisplay }

def EngineConfig.toJson (c : EngineConfig) : Json :=
  .object [
    ("parallel", .bool c.parallel),
    ("numThreads", Json.ofOption (fun n => .integer n) c.numThreads),
    ("unsetDisplay", .text c.unsetDisplay)]

end RowFormula
