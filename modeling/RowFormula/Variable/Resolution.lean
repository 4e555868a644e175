import RowFormula.Variable.Aggregate
import RowFormula.Variable.Binding
import RowFormula.Variable.Query

/-! Resolving variables.

A path is the name of a plain binding, or `<binding>.<entity>.<property>[.<function>]`
where the binding names a row. The entity is the row's own or one related to it.
-/

namespace RowFormula

/-- The property name that stands for a row's position in its entity. -/
def orderProperty : String := "order"

/-- The segments of a path, between its dots. -/
def pathSegments : List Char → List (List Char)
  | [] => [[]]
  | c :: rest =>
    if c = '.' then [] :: pathSegments rest
    else
      match pathSegments rest with
      | [] => [[c]]
      | head :: more => (c :: head) :: more

/-- The names with which no path may start. -/
def reservedNames : List String := ["user", "tenant"]

namespace Query

def rawValue (schema : EntitySchema) (row : Row) (property : String) : Query Value :=
  if property = orderProperty then .pure (.number row.order)
  else if (schema.property? property).isNone then
    .fail (.unknownProperty schema.name property)
  else .call (.readProperty schema.name row.id property)

/-- The value of one row's property, reduced when a function is given. -/
def ownValue (schema : EntitySchema) (row : Row) (property : String)
    (function : Option String) : Query Value := do
  let v ← rawValue schema row property
  match function with
  | none => return v
  | some name => return (← Query.done (Aggregator.ofName name)).apply [v]

/-- The value of a property over the rows that a relationship leads to: its default when
there is none, the row's own value when there is one, and otherwise what the function
makes of them.
-/
def relatedValue (path : String) (target : EntitySchema) (property : String)
    (function : Option String) (related : List Row) : Query Value :=
  match related with
  | [] =>
    match target.property? property with
    | some declared => .call (.propertyDefault declared)
    | none => .pure .null
  | [row] => do
    Query.read row
    ownValue target row property function
  | rows =>
    match function with
    | none => .fail (.multipleValues path)
    | some name => do
      let f ← Query.done (Aggregator.ofName name)
      let values ← Query.forEach (fun row => do
        Query.read row
        rawValue target row property) rows
      return f.apply values

end Query

/-- What the values of variables depend on besides the rows. -/
structure VariableScope where
  catalog : Catalog
  /-- The result type of the formula, which decides how a plain text is read. -/
  resultAs : ResultType

namespace VariableScope

/-- Looks up the part of a path after a binding that names a row. -/
def lookUpOnRow (v : VariableScope) (path entity item : String)
    (target property : String) (function : Option String) : Query Value := do
  let schema ← Query.ofStore (v.catalog.entity entity)
  let row ← Query.call (.row entity item)
  Query.read row
  if target = schema.name then Query.ownValue schema row property function
  else
    match schema.relationshipTo? target with
    | none => Query.fail (.unknownEntity path target schema.name)
    | some relationship => do
      let related ← Query.ofStore (v.catalog.entity relationship.entity)
      -- The property must be declared even when no row turns out to be related.
      if property ≠ orderProperty && (related.property? property).isNone then
        Query.fail (.unknownProperty related.name property)
      else
        let rows ← Query.call (.relatedRows schema.name row.id relationship.id)
        Query.relatedValue path related property function rows

/-- The value of a plain binding. A text alone is read as a number where a number is
wanted.
-/
def plainValue (v : VariableScope) (slots : ValueSlots) : Value :=
  match v.resultAs, slots with
  | .number, ⟨some s, none, none, none⟩ => .number (Value.numberOfText s)
  | _, slots => slots.toValue

/-- Looks up a path, whose value may be missing when its first segment is not bound. -/
def lookUp (v : VariableScope) (path : String) (bindings : VariableBindings)
    : Query (Option Value) :=
  let segments := (pathSegments path.toList).map String.ofList
  let head := segments.head?.getD ""
  let rest := segments.tail
  -- Without a further segment a reserved name is the name of a binding like any other.
  if head ∈ reservedNames && !rest.isEmpty then .fail (.unsupportedNamespace head)
  else
    match bindings.get? head with
    | none => .pure none
    | some (.plain slots) =>
      if rest.isEmpty then .pure (some (v.plainValue slots)) else .fail (.unknownPath path)
    | some (.row entity item) =>
      match rest with
      | [target, property] => some <$> v.lookUpOnRow path entity item target property none
      | [target, property, function] =>
        some <$> v.lookUpOnRow path entity item target property (some function)
      | _ => .fail (.unknownPath path)

/-- Looks up paths in turn, up to the first failure, and keeps those that have a value. -/
def lookUpAll (v : VariableScope) (paths : List String) (bindings : VariableBindings)
    : Query (Table String Value) := do
  let found ← Query.forEach (fun path => do
    let value ← v.lookUp path bindings
    return value.map (path, ·)) paths
  return .ofList (found.filterMap id)

end VariableScope

/-- What variables are resolved against. -/
structure VariableResolver extends VariableScope where
  rows : RowAccess

/-- The values of a formula's variables, and the ids of the rows that were read, each
once.
-/
structure VariableResolver.ResolvedValues where
  values : Table String Value
  rowIds : List String

/-- The values that were read for variables, and each row once. -/
def Reading.resolved (r : Reading (Table String Value))
    : Except ResolutionError VariableResolver.ResolvedValues :=
  r.outcome.map fun values => { values, rowIds := r.rowIds.eraseDups }

namespace VariableResolver

/-- Resolves a path, whose value may be missing when its first segment is not bound. -/
def resolve (r : VariableResolver) (path : String) (bindings : VariableBindings)
    : Reading (Option Value) :=
  (r.lookUp path bindings).against r.rows

/-- Resolves paths in turn, up to the first failure, and keeps those that have a value. -/
def resolvePaths (r : VariableResolver) (paths : List String) (bindings : VariableBindings)
    : Reading (Table String Value) :=
  (r.lookUpAll paths bindings).against r.rows

/-- Resolves every variable of a formula; those that are not bound are left out. -/
def resolveAll (r : VariableResolver) (f : Formula) (bindings : VariableBindings)
    : Except ResolutionError ResolvedValues :=
  (r.resolvePaths f.variablePaths bindings).resolved

end VariableResolver

end RowFormula
