import RowFormula.Engine.Calculation
import RowFormula.Proofs.Outcome

/-! Readings: what a query finds when all its calls are made on the same rows. A query that is
followed by another finds what the two find one after the other, so that readings are put together
as queries are.
-/

namespace RowFormula

namespace Reading

variable {α β : Type}

/-- A value without reading a row. -/
def pure (a : α) : Reading α :=
  { outcome := .ok a }

def fail (e : ResolutionError) : Reading α :=
  { outcome := .error e }

/-- A reading followed by another that depends on its value. -/
def bind (r : Reading α) (next : α → Reading β) : Reading β :=
  match r.outcome with
  | .ok a => { outcome := (next a).outcome, rowIds := r.rowIds ++ (next a).rowIds }
  | .error e => { outcome := .error e, rowIds := r.rowIds }

instance : Monad Reading where
  pure := pure
  bind := bind

/-- Notes that a row is read. -/
def visit (rowId : String) : Reading Unit :=
  { outcome := .ok (), rowIds := [rowId] }

def ofStore (answer : Except StoreError α) : Reading α :=
  { outcome := answer.mapError .store }

/-- An outcome that reads no row. -/
def ofExcept (outcome : Except ResolutionError α) : Reading α :=
  { outcome := outcome }

/-- Reads for each item in turn, up to the first failure. -/
def forEach (read : α → Reading β) : List α → Reading (List β)
  | [] => pure []
  | item :: rest => do
    let first ← read item
    let others ← forEach read rest
    return first :: others

end Reading

-----------------------------------------------------------------------------------------
-- What queries find
-----------------------------------------------------------------------------------------

namespace Query

variable {α β : Type} (a : RowAccess)

@[simp] theorem against_pure (b : α) : (Pure.pure b : Query α).against a = Pure.pure b := rfl

@[simp] theorem against_done (outcome : Except ResolutionError α)
    : (done outcome).against a = .ofExcept outcome := rfl

@[simp] theorem against_read (row : Row) : (read row).against a = .visit row.id := rfl

@[simp] theorem against_ofStore (answer : Except StoreError α)
    : (ofStore answer).against a = .ofStore answer := rfl

@[simp] theorem against_call (c : ReadCall) : (call c).against a = .ofStore (a.answer c) := rfl

/-- A query that goes on finds what its parts find one after the other, by induction on the first.
-/
@[simp] theorem against_bind (q : Query α) (next : α → Query β)
    : (q >>= next).against a = q.against a >>= fun b => (next b).against a := by
  induction q with
  | done outcome => cases outcome <;> rfl
  | visit rowId rest ih =>
      change ((rest >>= next).against a).after rowId
        = (rest.against a).after rowId >>= fun b => (next b).against a
      rw [ih]
      obtain ⟨outcome, rowIds⟩ := rest.against a
      cases outcome <;> rfl
  | ask c answered ih => exact ih (a.answer c)

@[simp] theorem against_map (f : α → β) (q : Query α)
    : (f <$> q).against a = f <$> q.against a :=
  against_bind a q _

/-- Asking for each item finds what the parts find in turn, by induction on the items. -/
@[simp] theorem against_forEach (query : α → Query β) (items : List α)
    : (forEach query items).against a = .forEach (fun item => (query item).against a) items := by
  induction items with
  | nil => rfl
  | cons item rest ih => simp only [forEach, Reading.forEach, against_bind, against_pure, ih]

end Query

namespace VariableResolver

variable (r : VariableResolver)

def rawValue (schema : EntitySchema) (row : Row) (property : String) : Reading Value :=
  if property = orderProperty then .pure (.number row.order)
  else if (schema.property? property).isNone then
    .fail (.unknownProperty schema.name property)
  else .ofStore (r.rows.readProperty schema.name row.id property)

/-- The value of one row's property, reduced when a function is given. -/
def ownValue (schema : EntitySchema) (row : Row) (property : String)
    (function : Option String)
    : Reading Value := do
  let v ← r.rawValue schema row property
  match function with
  | none => return v
  | some name => return (← Reading.ofExcept (Aggregator.ofName name)).apply [v]

/-- The value of a property over the rows that a relationship leads to. -/
def relatedValue (path : String) (target : EntitySchema) (property : String)
    (function : Option String) (related : List Row)
    : Reading Value :=
  match related with
  | [] =>
    match target.property? property with
    | some declared => .ofStore (r.rows.propertyDefault declared)
    | none => .pure .null
  | [row] => do
    Reading.visit row.id
    r.ownValue target row property function
  | rows =>
    match function with
    | none => .fail (.multipleValues path)
    | some name => do
      let f ← Reading.ofExcept (Aggregator.ofName name)
      let values ← Reading.forEach (fun row => do
        Reading.visit row.id
        r.rawValue target row property) rows
      return f.apply values

/-- Resolves the part of a path after a binding that names a row. -/
def resolveOnRow (path entity item target property : String) (function : Option String)
    : Reading Value := do
  let schema ← Reading.ofStore (r.catalog.entity entity)
  let row ← Reading.ofStore (r.rows.row entity item)
  Reading.visit row.id
  if target = schema.name then r.ownValue schema row property function
  else
    match schema.relationshipTo? target with
    | none => Reading.fail (.unknownEntity path target schema.name)
    | some relationship => do
      let related ← Reading.ofStore (r.catalog.entity relationship.entity)
      if property ≠ orderProperty && (related.property? property).isNone then
        Reading.fail (.unknownProperty related.name property)
      else
        let rows ← Reading.ofStore (r.rows.relatedRows schema.name row.id relationship.id)
        r.relatedValue path related property function rows

theorem against_rawValue (schema : EntitySchema) (row : Row) (property : String)
    : (Query.rawValue schema row property).against r.rows = r.rawValue schema row property := by
  unfold Query.rawValue rawValue
  rw [apply_ite (Query.against r.rows), apply_ite (Query.against r.rows)]
  rfl

theorem against_ownValue (schema : EntitySchema) (row : Row) (property : String)
    (function : Option String)
    : (Query.ownValue schema row property function).against r.rows
      = r.ownValue schema row property function := by
  simp only [Query.ownValue, ownValue, Query.against_bind, against_rawValue]
  cases function with
  | none => rfl
  | some name => simp only [Query.against_bind, Query.against_done, Query.against_pure]

theorem against_relatedValue (path : String) (target : EntitySchema) (property : String)
    (function : Option String) (related : List Row)
    : (Query.relatedValue path target property function related).against r.rows
      = r.relatedValue path target property function related := by
  match related with
  | [] =>
      simp only [Query.relatedValue, relatedValue]
      cases target.property? property <;> rfl
  | [row] =>
      simp only [Query.relatedValue, relatedValue, Query.against_bind, Query.against_read,
        against_ownValue]
  | first :: second :: others =>
      cases function with
      | none => rfl
      | some name =>
          simp only [Query.relatedValue, relatedValue, Query.against_bind, Query.against_done,
            Query.against_forEach, Query.against_read, Query.against_pure, against_rawValue]

theorem against_lookUpOnRow (path entity item target property : String)
    (function : Option String)
    : (r.lookUpOnRow path entity item target property function).against r.rows
      = r.resolveOnRow path entity item target property function := by
  simp only [VariableScope.lookUpOnRow, resolveOnRow, Query.against_bind, Query.against_ofStore]
  refine congrArg (Reading.bind _) (funext fun schema => ?_)
  refine congrArg (Reading.bind _) (funext fun row => ?_)
  refine congrArg (Reading.bind _) (funext fun _ => ?_)
  split
  · exact against_ownValue r schema row property function
  · cases schema.relationshipTo? target with
    | none => rfl
    | some relationship =>
        simp only [Query.against_bind, Query.against_ofStore]
        refine congrArg (Reading.bind _) (funext fun related => ?_)
        split
        · rfl
        · rw [Query.against_bind, Query.against_call]
          refine congrArg (Reading.bind _) (funext fun rows => ?_)
          exact against_relatedValue r path related property function rows

theorem resolve_eq (path : String) (bindings : VariableBindings)
    : r.resolve path bindings
      = let segments := (pathSegments path.toList).map String.ofList
        let head := segments.head?.getD ""
        let rest := segments.tail
        if head ∈ reservedNames && !rest.isEmpty then .fail (.unsupportedNamespace head)
        else
          match bindings.get? head with
          | none => .pure none
          | some (.plain slots) =>
            if rest.isEmpty then .pure (some (r.plainValue slots)) else .fail (.unknownPath path)
          | some (.row entity item) =>
            match rest with
            | [target, property] => some <$> r.resolveOnRow path entity item target property none
            | [target, property, function] =>
              some <$> r.resolveOnRow path entity item target property (some function)
            | _ => .fail (.unknownPath path) := by
  simp only [resolve, VariableScope.lookUp]
  split
  · rfl
  · cases bindings.get? _ with
    | none => rfl
    | some binding =>
        cases binding with
        | plain slots => exact apply_ite (Query.against r.rows) _ _ _
        | row entity item =>
            rcases ((pathSegments path.toList).map String.ofList).tail with
              _ | ⟨target, _ | ⟨property, _ | ⟨function, _ | _⟩⟩⟩ <;>
              simp only [Query.against_map, against_lookUpOnRow] <;> rfl

theorem resolvePaths_eq (paths : List String) (bindings : VariableBindings)
    : r.resolvePaths paths bindings
      = (do
        let found ← Reading.forEach (fun path => do
          let v ← r.resolve path bindings
          return v.map (path, ·)) paths
        return .ofList (found.filterMap id)) := by
  simp only [resolvePaths, VariableScope.lookUpAll, Query.against_bind, Query.against_forEach,
    Query.against_pure]
  rfl

theorem resolveAll_eq (f : Formula) (bindings : VariableBindings)
    : r.resolveAll f bindings
      = Reading.resolved (do
        let found ← Reading.forEach (fun path => do
          let v ← r.resolve path bindings
          return v.map (path, ·)) f.variablePaths
        return .ofList (found.filterMap id)) := by
  rw [resolveAll, resolvePaths_eq]

end VariableResolver

namespace Reading

variable {α β : Type}

/-- Readings are the same if they begin alike and go on alike from the value found. -/
theorem bind_congr {r : Reading α} {next other : α → Reading β}
    (same : ∀ a, r.outcome = .ok a → next a = other a)
    : (r >>= next) = (r >>= other) := by
  obtain ⟨outcome, rowIds⟩ := r
  cases outcome with
  | error cause => rfl
  | ok a =>
      change Reading.bind _ _ = Reading.bind _ _
      simp only [Reading.bind, same a rfl]

/-- A store that answers is gone on from as if the answer had been there. -/
theorem ofStore_bind_of_ok {answer : Except StoreError α} {a : α} {next : α → Reading β}
    (answered : answer = .ok a)
    : (ofStore answer >>= next) = next a := by
  rw [answered]
  rfl

theorem forEach_congr {read other : α → Reading β} {items : List α}
    (same : ∀ item ∈ items, read item = other item)
    : forEach read items = forEach other items := by
  induction items with
  | nil => rfl
  | cons item rest ih =>
      simp only [forEach]
      rw [same item List.mem_cons_self,
        ih fun later member => same later (List.mem_cons_of_mem item member)]

theorem ofStore_eq_ok {answer : Except StoreError α} {a : α}
    (found : (ofStore answer).outcome = .ok a)
    : answer = .ok a := by
  cases answer with
  | error cause => simp [ofStore] at found
  | ok b => simpa [ofStore] using found

-----------------------------------------------------------------------------------------
-- Outcomes
-----------------------------------------------------------------------------------------

@[simp] theorem outcome_pure (a : α) : (Pure.pure a : Reading α).outcome = .ok a := rfl

@[simp] theorem outcome_visit (rowId : String) : (visit rowId).outcome = .ok () := rfl

@[simp] theorem outcome_ofStore (answer : Except StoreError α)
    : (ofStore answer).outcome = answer.mapError .store :=
  rfl

@[simp] theorem outcome_ofExcept (outcome : Except ResolutionError α)
    : (ofExcept outcome).outcome = outcome :=
  rfl

@[simp] theorem outcome_bind (r : Reading α) (next : α → Reading β)
    : (r >>= next).outcome = r.outcome.bind fun a => (next a).outcome := by
  obtain ⟨outcome, rowIds⟩ := r
  cases outcome <;> rfl

/-- A reading whose first part succeeds has the outcome of the second. -/
theorem outcome_bind_of_ok {r : Reading α} {next : α → Reading β} {a : α}
    (first : r.outcome = .ok a)
    : (r >>= next).outcome = (next a).outcome := by
  rw [outcome_bind, first]
  rfl

@[simp] theorem outcome_map (f : α → β) (r : Reading α)
    : (f <$> r).outcome = r.outcome.map f := by
  obtain ⟨outcome, rowIds⟩ := r
  cases outcome <;> rfl

/-- Reading for each item has the outcome of the parts, by induction on the items. -/
theorem outcome_forEach (read : α → Reading β) (items : List α)
    : (forEach read items).outcome = items.mapM fun item => (read item).outcome := by
  induction items with
  | nil => rfl
  | cons item rest ih =>
      simp only [forEach, outcome_bind, outcome_pure, ih, List.mapM_cons]
      rfl

-----------------------------------------------------------------------------------------
-- The rows that are read
-----------------------------------------------------------------------------------------

@[simp] theorem rowIds_pure (a : α) : (Pure.pure a : Reading α).rowIds = [] := rfl

@[simp] theorem rowIds_fail (cause : ResolutionError)
    : (fail cause : Reading α).rowIds = [] :=
  rfl

@[simp] theorem rowIds_visit (id : String) : (visit id).rowIds = [id] := rfl

@[simp] theorem rowIds_ofStore (answer : Except StoreError α) : (ofStore answer).rowIds = [] :=
  rfl

@[simp] theorem rowIds_ofExcept (outcome : Except ResolutionError α)
    : (ofExcept outcome).rowIds = [] :=
  rfl

@[simp] theorem rowIds_map (f : α → β) (r : Reading α) : (f <$> r).rowIds = r.rowIds := by
  obtain ⟨outcome, rowIds⟩ := r
  cases outcome with
  | error cause => rfl
  | ok a => exact List.append_nil rowIds

theorem rowIds_bind_of_ok {r : Reading α} {next : α → Reading β} {a : α}
    (first : r.outcome = .ok a)
    : (r >>= next).rowIds = r.rowIds ++ (next a).rowIds := by
  obtain ⟨outcome, rowIds⟩ := r
  obtain rfl : outcome = .ok a := first
  rfl

/-- A reading in two parts of which none reads a row reads none. -/
theorem rowIds_bind_eq_nil {r : Reading α} {next : α → Reading β} (first : r.rowIds = [])
    (second : ∀ a, (next a).rowIds = [])
    : (r >>= next).rowIds = [] := by
  obtain ⟨outcome, rowIds⟩ := r
  obtain rfl : rowIds = [] := first
  cases outcome with
  | error cause => rfl
  | ok a => exact second a

-----------------------------------------------------------------------------------------
-- Readings that succeed
-----------------------------------------------------------------------------------------

/-- A reading in two parts succeeds when both do, and has read what both have. -/
theorem bind_eq_ok_iff {r : Reading α} {next : α → Reading β} {b : β} {ids : List String}
    : (r >>= next) = ⟨.ok b, ids⟩
      ↔ ∃ a first later,
          r = ⟨.ok a, first⟩ ∧ next a = ⟨.ok b, later⟩ ∧ ids = first ++ later := by
  obtain ⟨outcome, rowIds⟩ := r
  change Reading.bind _ _ = _ ↔ _
  cases outcome with
  | error cause => simp [Reading.bind]
  | ok a =>
      simp only [Reading.bind, mk.injEq, Except.ok.injEq]
      constructor
      · rintro ⟨second, rfl⟩
        exact ⟨a, rowIds, (next a).rowIds, ⟨rfl, rfl⟩, by rw [← second], rfl⟩
      · rintro ⟨_, _, later, ⟨rfl, rfl⟩, second, rfl⟩
        simp only [second, and_self]

theorem ofStore_eq_ok_iff {answer : Except StoreError α} {a : α} {ids : List String}
    : ofStore answer = ⟨.ok a, ids⟩ ↔ answer = .ok a ∧ ids = [] := by
  cases answer <;> simp [ofStore, eq_comm]

theorem visit_eq_ok_iff {rowId : String} {ids : List String}
    : visit rowId = ⟨.ok (), ids⟩ ↔ ids = [rowId] := by
  simp [visit, eq_comm]

/-- When reading for each item succeeds, it has read what the parts have in turn, by induction on
the items.
-/
theorem rowIds_of_forEach {read : α → Reading β} {items : List α} {results : List β}
    {ids : List String} (succeeded : forEach read items = ⟨.ok results, ids⟩)
    : ids = items.flatMap fun item => (read item).rowIds := by
  induction items generalizing results ids with
  | nil => exact (congrArg rowIds succeeded).symm
  | cons head rest ih =>
      obtain ⟨first, firstIds, laterIds, headRead, later, rfl⟩ := bind_eq_ok_iff.mp succeeded
      obtain ⟨others, restIds, lastIds, restRead, last, rfl⟩ := bind_eq_ok_iff.mp later
      have none : lastIds = [] := (congrArg rowIds last).symm
      rw [List.flatMap_cons, headRead, ← ih restRead, none, List.append_nil]

end Reading

namespace VariableResolver

variable {r : VariableResolver} {path property : String} {schema : EntitySchema}
  {function : Option String}

/-- A path from a row goes on from that row. -/
theorem resolve_of_row {bindings : VariableBindings} {binding entity item target : String}
    (segments
      : (pathSegments path.toList).map String.ofList
        = binding :: target :: property :: function.toList)
    (free : binding ∉ reservedNames) (bound : bindings.get? binding = some (.row entity item))
    : r.resolve path bindings
      = some <$> r.resolveOnRow path entity item target property function := by
  simp only [resolve_eq, segments, List.head?_cons, Option.getD_some, bound, free, decide_false,
    Bool.false_and, Bool.false_eq_true, if_false, List.tail_cons]
  cases function <;> rfl

/-- A path that does not start with a reserved name and a dot passes the first check. -/
theorem passes_of_free {binding : String} {rest : List String}
    (free : ¬(binding ∈ reservedNames ∧ rest ≠ []))
    : (decide (binding ∈ reservedNames) && !rest.isEmpty) = false := by
  simpa using free

/-- A path whose first segment is not bound has no value, unless it starts with a reserved name
that is followed by a dot.
-/
theorem resolve_of_unbound {bindings : VariableBindings} {binding : String} {rest : List String}
    (segments : (pathSegments path.toList).map String.ofList = binding :: rest)
    (free : ¬(binding ∈ reservedNames ∧ rest ≠ [])) (unbound : bindings.get? binding = none)
    : r.resolve path bindings = .pure none := by
  simp only [resolve_eq, segments, List.head?_cons, Option.getD_some, List.tail_cons,
    passes_of_free free, Bool.false_eq_true, if_false, unbound]

@[simp] theorem rowIds_rawValue (row : Row)
    : (r.rawValue schema row property).rowIds = [] := by
  simp only [rawValue]
  split
  · rfl
  · split <;> rfl

@[simp] theorem rowIds_ownValue (row : Row)
    : (r.ownValue schema row property function).rowIds = [] := by
  refine Reading.rowIds_bind_eq_nil (rowIds_rawValue row) fun v => ?_
  cases function with
  | none => rfl
  | some name => exact Reading.rowIds_bind_eq_nil rfl fun _ => rfl

/-- The value over a relationship is read from every related row in turn. -/
theorem rowIds_of_relatedValue {rows : List Row} {v : Value} {ids : List String}
    (read : r.relatedValue path schema property function rows = ⟨.ok v, ids⟩)
    : ids = rows.map Row.id := by
  have same := congrArg Reading.rowIds read
  rcases rows with _ | ⟨single, _ | ⟨second, others⟩⟩
  · simp only [relatedValue] at same
    cases found : schema.property? property <;> simpa [found, Reading.pure, eq_comm] using same
  · simp only [relatedValue] at read
    obtain ⟨_, first, later, visited, own, rfl⟩ := Reading.bind_eq_ok_iff.mp read
    have none : later = [] := by
      rw [← rowIds_ownValue single, own]
    rw [Reading.visit_eq_ok_iff.mp visited, none]
    rfl
  · cases function with
    | none => simp [relatedValue, Reading.fail] at read
    | some name =>
        simp only [relatedValue] at read
        obtain ⟨f, early, late, supported, applied, rfl⟩ := Reading.bind_eq_ok_iff.mp read
        obtain ⟨values, visited, last, each, done, rfl⟩ := Reading.bind_eq_ok_iff.mp applied
        have before : early = [] := (congrArg Reading.rowIds supported).symm
        have after : last = [] := (congrArg Reading.rowIds done).symm
        have one (row : Row)
            : (Reading.visit row.id >>= fun _ => r.rawValue schema row property).rowIds
              = [row.id] := by
          rw [Reading.rowIds_bind_of_ok (Reading.outcome_visit row.id), rowIds_rawValue]
          rfl
        rw [before, after, List.nil_append, List.append_nil, Reading.rowIds_of_forEach each,
          List.map_eq_flatMap]
        simp only [one]

end VariableResolver

-----------------------------------------------------------------------------------------
-- The same values read from different stores
-----------------------------------------------------------------------------------------

namespace Engine

variable {e : Engine} {f : Formula} {s t : RowStore} {schema : EntitySchema}
  {property : String} {function : Option String}

theorem ownValue_congr {row : Row}
    (same
      : (e.resolver f s).rawValue schema row property
        = (e.resolver f t).rawValue schema row property)
    : (e.resolver f s).ownValue schema row property function
      = (e.resolver f t).ownValue schema row property function := by
  simp only [VariableResolver.ownValue, same]

/-- What a relationship leads to has the same value if every row on its end does. -/
theorem relatedValue_congr {path : String} {related : List Row}
    (same
      : ∀ row ∈ related,
          (e.resolver f s).rawValue schema row property
          = (e.resolver f t).rawValue schema row property)
    : (e.resolver f s).relatedValue path schema property function related
      = (e.resolver f t).relatedValue path schema property function related := by
  match related with
  | [] => rfl
  | [row] =>
      simp only [VariableResolver.relatedValue]
      rw [ownValue_congr (same row (List.mem_singleton_self row))]
  | first :: second :: others =>
      cases function with
      | none => rfl
      | some name =>
          simp only [VariableResolver.relatedValue]
          refine Reading.bind_congr fun aggregator _ => ?_
          rw [Reading.forEach_congr fun row member => ?_]
          rw [same row member]

end Engine

end RowFormula
