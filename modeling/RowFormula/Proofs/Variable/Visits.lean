import RowFormula.Proofs.Variable.Cardinality

/-! The rows that are read for variables: the row that a path starts from, and those that its
relationship leads to. A failure ends the reading, and what was read before it stays read.
-/

namespace RowFormula

namespace Reading

variable {α β : Type} {rowId : String}

/-- A reading in two parts reads what the first does, and what the second does if there is
one.
-/
@[simp] theorem mem_rowIds_bind {r : Reading α} {next : α → Reading β}
    : rowId ∈ (r >>= next).rowIds
      ↔ rowId ∈ r.rowIds ∨ ∃ a, r.outcome = .ok a ∧ rowId ∈ (next a).rowIds := by
  obtain ⟨outcome, rowIds⟩ := r
  change rowId ∈ (Reading.bind _ _).rowIds ↔ _
  cases outcome <;> simp [Reading.bind]

/-- Reading for each item reads what a part does before which none fails, by induction on the
items.
-/
theorem mem_rowIds_forEach {read : α → Reading β} {items : List α}
    : rowId ∈ (forEach read items).rowIds
      ↔ ∃ before item after,
          items = before ++ item :: after
          ∧ (∀ earlier ∈ before, ∃ b, (read earlier).outcome = .ok b)
          ∧ rowId ∈ (read item).rowIds := by
  induction items with
  | nil => simp [forEach, Reading.pure]
  | cons head rest ih =>
      rw [List.exists_split_cons_iff, ← ih]
      simp only [forEach, mem_rowIds_bind, rowIds_pure, List.not_mem_nil, and_false,
        exists_false, or_false, exists_and_right]

end Reading

namespace VariableResolver

variable {r : VariableResolver} {bindings : VariableBindings} {path rowId : String}

/-- A path starts from a row that is found, and goes on to a property of an entity. -/
def StartsFrom (r : VariableResolver) (bindings : VariableBindings) (path : String)
    (schema : EntitySchema) (row : Row) (target property : String) (function : Option String)
    : Prop :=
  ∃ binding entity item,
    (pathSegments path.toList).map String.ofList
      = binding :: target :: property :: function.toList
    ∧ binding ∉ reservedNames
    ∧ bindings.get? binding = some (.row entity item)
    ∧ r.catalog.entity entity = .ok schema
    ∧ r.rows.row entity item = .ok row

/-- A row is read among related ones: the only one, or one of several whose values a function
reduces, of which every earlier one could be read.
-/
def ReadsAmong (r : VariableResolver) (schema : EntitySchema) (property : String)
    (function : Option String) (rows : List Row) (rowId : String) : Prop :=
  ∃ before row after,
    rows = before ++ row :: after
    ∧ (before ++ after = [] ∨ ∃ f, function.map Aggregator.ofName = some (.ok f))
    ∧ (∀ earlier ∈ before, ∃ v, (r.rawValue schema earlier property).outcome = .ok v)
    ∧ row.id = rowId

/-- A path reads a row: the one that it starts from, or one that a relationship leads to. -/
inductive PathReads (r : VariableResolver) (bindings : VariableBindings) (path rowId : String)
    : Prop where
  | bound {schema : EntitySchema} {row : Row} {target property : String}
      {function : Option String}
      (starts : r.StartsFrom bindings path schema row target property function)
      (own : row.id = rowId)
  | related {schema related : EntitySchema} {row : Row} {target property : String}
      {function : Option String} {rel : Relationship} {rows : List Row}
      (starts : r.StartsFrom bindings path schema row target property function)
      (other : target ≠ schema.name)
      (follows : schema.relationshipTo? target = some rel)
      (reached : r.catalog.entity rel.entity = .ok related)
      (readable : related.Readable property)
      (leads : r.rows.relatedRows schema.name row.id rel.id = .ok rows)
      (among : r.ReadsAmong related property function rows rowId)

/-- A row is read for a list of paths: one of them reads it, and every earlier one is resolved.
-/
def PathsRead (r : VariableResolver) (paths : List String) (bindings : VariableBindings)
    (rowId : String) : Prop :=
  ∃ before path after,
    paths = before ++ path :: after
    ∧ (∀ earlier ∈ before, ∃ v, (r.resolve earlier bindings).outcome = .ok v)
    ∧ r.PathReads bindings path rowId

/-- A path of known segments starts from the row to which its first one is bound. -/
theorem startsFrom_iff {schema : EntitySchema} {row : Row}
    {binding entity item target property : String} {function : Option String}
    (segments
      : (pathSegments path.toList).map String.ofList
        = binding :: target :: property :: function.toList)
    (bound : bindings.get? binding = some (.row entity item))
    : r.StartsFrom bindings path schema row target property function
      ↔ binding ∉ reservedNames
        ∧ r.catalog.entity entity = .ok schema
        ∧ r.rows.row entity item = .ok row := by
  constructor
  · rintro ⟨_, _, _, same, free, start, found⟩
    obtain ⟨rfl, -⟩ := List.cons.inj (segments.symm.trans same)
    obtain ⟨rfl, rfl⟩ := VariableBinding.row.inj (Option.some.inj (bound.symm.trans start))
    exact ⟨free, found⟩
  · rintro ⟨free, found⟩
    exact ⟨binding, entity, item, segments, free, bound, found⟩

theorem mem_rowIds_relatedValue {schema : EntitySchema} {property : String}
    {function : Option String} {rows : List Row}
    : rowId ∈ (r.relatedValue path schema property function rows).rowIds
      ↔ r.ReadsAmong schema property function rows rowId := by
  rcases rows with _ | ⟨single, _ | ⟨second, others⟩⟩
  · simp only [relatedValue, ReadsAmong]
    cases schema.property? property <;> simp [Reading.pure]
  · simp only [relatedValue, Reading.mem_rowIds_bind, Reading.rowIds_visit,
      List.mem_singleton, rowIds_ownValue, List.not_mem_nil, and_false, exists_false, or_false]
    constructor
    · rintro rfl
      exact ⟨[], single, [], rfl, .inl rfl, by simp, rfl⟩
    · rintro ⟨before, one, after, split, -, -, rfl⟩
      have same : one ∈ [single] := split ▸ List.mem_append_right before List.mem_cons_self
      rw [List.mem_singleton.mp same]
  · have several {before after : List Row} {one : Row}
        (split : single :: second :: others = before ++ one :: after)
        : before ++ after ≠ [] := by
      intro none
      have length := congrArg List.length split
      have empty := congrArg List.length none
      simp only [List.length_append, List.length_cons, List.length_nil] at length empty
      omega
    cases function with
    | none =>
        simp only [relatedValue, Reading.rowIds_fail, List.not_mem_nil, false_iff]
        rintro ⟨before, one, after, split, alone | ⟨f, named⟩, -⟩
        · exact several split alone
        · simp at named
    | some name =>
        simp only [relatedValue, Reading.mem_rowIds_bind, Reading.rowIds_ofExcept,
          Reading.outcome_ofExcept, Reading.mem_rowIds_forEach, Reading.rowIds_visit,
          Reading.rowIds_pure, rowIds_rawValue, Reading.outcome_bind, Reading.outcome_visit,
          List.mem_singleton, List.not_mem_nil, and_false, exists_false, or_false, false_or]
        constructor
        · rintro ⟨f, named, before, one, after, split, earlier, rfl⟩
          exact ⟨before, one, after, split, .inr ⟨f, congrArg some named⟩, earlier, rfl⟩
        · rintro ⟨before, one, after, split, alone | ⟨f, named⟩, earlier, rfl⟩
          · exact absurd alone (several split)
          · exact ⟨f, Option.some.inj named, before, one, after, split, earlier, rfl⟩

/-- What a path reads from a row: the row itself, and those that are read among the rows
related to it.
-/
theorem mem_rowIds_resolveOnRow {entity item target property : String}
    {function : Option String}
    : rowId ∈ (r.resolveOnRow path entity item target property function).rowIds
      ↔ ∃ schema row,
          r.catalog.entity entity = .ok schema
          ∧ r.rows.row entity item = .ok row
          ∧ (row.id = rowId
            ∨ target ≠ schema.name
              ∧ ∃ rel, schema.relationshipTo? target = some rel
              ∧ ∃ related, r.catalog.entity rel.entity = .ok related
              ∧ related.Readable property
              ∧ ∃ rows, r.rows.relatedRows schema.name row.id rel.id = .ok rows
              ∧ r.ReadsAmong related property function rows rowId) := by
  simp only [resolveOnRow, Reading.mem_rowIds_bind, Reading.rowIds_ofStore,
    Reading.outcome_ofStore, Except.mapError_eq_ok_iff, Reading.rowIds_visit,
    Reading.outcome_visit, List.not_mem_nil, List.mem_singleton, false_or, true_and,
    exists_const]
  refine exists_congr fun schema => ?_
  rw [← exists_and_left]
  refine exists_congr fun row => and_congr_right fun _ => and_congr_right fun _ => ?_
  refine or_congr eq_comm ?_
  by_cases own : target = schema.name
  · simp [own]
  · cases schema.relationshipTo? target with
    | none => simp [own]
    | some rel =>
        simp only [own, if_false, Reading.mem_rowIds_bind, Reading.rowIds_ofStore,
          Reading.outcome_ofStore, Except.mapError_eq_ok_iff, List.not_mem_nil, false_or,
          Option.some.injEq, ne_eq, not_false_eq_true, true_and, exists_eq_left']
        refine exists_congr fun related => and_congr_right fun _ => ?_
        by_cases readable : related.Readable property
        · have passes := mt EntitySchema.unreadable_iff.mp (not_not_intro readable)
          rw [if_neg passes]
          simp only [readable, Reading.mem_rowIds_bind, Reading.rowIds_ofStore,
            Reading.outcome_ofStore, Except.mapError_eq_ok_iff, List.not_mem_nil, false_or,
            mem_rowIds_relatedValue, true_and]
        · have refused := EntitySchema.unreadable_iff.mpr readable
          rw [if_pos refused]
          simp [readable]

/-- A path that reads any row starts from a binding to one, and has three or four segments. -/
theorem row_binding_of_mem_rowIds (visited : rowId ∈ (r.resolve path bindings).rowIds)
    : ∃ binding entity item target property function,
        (pathSegments path.toList).map String.ofList
          = binding :: target :: property :: Option.toList function
        ∧ binding ∉ reservedNames
        ∧ bindings.get? binding = some (.row entity item) := by
  simp only [resolve_eq] at visited
  generalize (pathSegments path.toList).map String.ofList = segments at visited ⊢
  split at visited
  · simp at visited
  · next free =>
      split at visited
      · simp [Reading.pure] at visited
      · split at visited <;> simp [Reading.pure] at visited
      · next entity item bound =>
          -- The path of a row binding has as many segments as one of the two cases says.
          have starts {rest : List String} (tail : segments.tail = rest) (nonempty : rest ≠ [])
              : ∃ binding, segments = binding :: rest
                ∧ binding ∉ reservedNames
                ∧ bindings.get? binding = some (.row entity item) := by
            cases segments with
            | nil => exact absurd tail.symm nonempty
            | cons binding others =>
                obtain rfl : others = rest := tail
                refine ⟨binding, rfl, fun reserved => free ?_, bound⟩
                simp [reserved, nonempty]
          split at visited
          · next target property tail =>
              obtain ⟨binding, rfl, start⟩ := starts tail (List.cons_ne_nil _ _)
              exact ⟨binding, entity, item, target, property, none, rfl, start⟩
          · next target property function tail =>
              obtain ⟨binding, rfl, start⟩ := starts tail (List.cons_ne_nil _ _)
              exact ⟨binding, entity, item, target, property, some function, rfl, start⟩
          · simp at visited

/-- A path that starts from no row reads none, and every other path reads what it reads from
its row.
-/
theorem mem_rowIds_resolve
    : rowId ∈ (r.resolve path bindings).rowIds ↔ r.PathReads bindings path rowId := by
  constructor
  · intro visited
    obtain ⟨binding, entity, item, target, property, function, segments, free, bound⟩ :=
      row_binding_of_mem_rowIds visited
    rw [resolve_of_row segments free bound, Reading.rowIds_map, mem_rowIds_resolveOnRow]
      at visited
    obtain ⟨schema, row, known, present, visited⟩ := visited
    have starts : r.StartsFrom bindings path schema row target property function :=
      ⟨binding, entity, item, segments, free, bound, known, present⟩
    obtain own | ⟨other, rel, follows, related, reached, readable, rows, leads, among⟩ :=
      visited
    · exact .bound starts own
    · exact .related starts other follows reached readable leads among
  · intro reads
    cases reads with
    | bound starts own =>
        obtain ⟨binding, entity, item, segments, free, bound, known, present⟩ := starts
        rw [resolve_of_row segments free bound, Reading.rowIds_map, mem_rowIds_resolveOnRow]
        exact ⟨_, _, known, present, .inl own⟩
    | related starts other follows reached readable leads among =>
        obtain ⟨binding, entity, item, segments, free, bound, known, present⟩ := starts
        rw [resolve_of_row segments free bound, Reading.rowIds_map, mem_rowIds_resolveOnRow]
        exact ⟨_, _, known, present,
          .inr ⟨other, _, follows, _, reached, readable, _, leads, among⟩⟩

theorem mem_rowIds_resolvePaths {paths : List String}
    : rowId ∈ (r.resolvePaths paths bindings).rowIds ↔ r.PathsRead paths bindings rowId := by
  have resolved (path : String)
      : (∃ entry, (r.resolve path bindings).outcome.bind (fun v => .ok (v.map (path, ·)))
          = .ok entry)
        ↔ ∃ v, (r.resolve path bindings).outcome = .ok v := by
    cases (r.resolve path bindings).outcome <;> simp [Except.bind]
  simp only [resolvePaths_eq, Reading.mem_rowIds_bind, Reading.mem_rowIds_forEach,
    Reading.rowIds_pure, Reading.outcome_bind, Reading.outcome_pure, List.not_mem_nil, and_false,
    exists_false, or_false, mem_rowIds_resolve, resolved, PathsRead]

end VariableResolver

end RowFormula
