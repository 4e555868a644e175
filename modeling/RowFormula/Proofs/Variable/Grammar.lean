import Mathlib
import RowFormula.Proofs.Variable.Reading

/-! The grammar of paths: what the text of a path and the bindings decide before a store is asked.
A path starts with a reserved name, or its first segment names a binding, and only a path of the
right length that starts from a row goes on to the stores.
-/

namespace RowFormula

-----------------------------------------------------------------------------------------
-- Segments
-----------------------------------------------------------------------------------------

/-- The texts between the dots of a path. -/
def segmentsOf (path : String) : List String :=
  (path.toList.splitOn '.').map String.ofList

/-- The segments of a path are what it is cut into at every dot, by induction on its characters. -/
theorem pathSegments_eq_splitOn (cs : List Char) : pathSegments cs = cs.splitOn '.' := by
  induction cs with
  | nil => rfl
  | cons c rest ih =>
      rw [pathSegments, ih, List.splitOn_cons_eq_if_modifyHead]
      obtain ⟨head, more, cut⟩ := List.exists_cons_of_ne_nil (List.splitOn_ne_nil '.' rest)
      by_cases dot : c = '.' <;> simp [dot, cut]

theorem segments_eq (path : String)
    : (pathSegments path.toList).map String.ofList = segmentsOf path := by
  rw [pathSegments_eq_splitOn, segmentsOf]

theorem segmentsOf_eq_cons (path : String) : ∃ head rest, segmentsOf path = head :: rest := by
  apply List.exists_cons_of_ne_nil
  simp [segmentsOf]

/-- What stands before the first dot of a path is its first segment, and more segments follow. -/
theorem segmentsOf_of_dot {path : String} {before after : List Char} (plain : '.' ∉ before)
    (split : path.toList = before ++ '.' :: after)
    : ∃ rest, segmentsOf path = String.ofList before :: rest ∧ rest ≠ [] := by
  rw [segmentsOf, split, List.splitOn_append_cons_self_of_not_mem plain, List.map_cons]
  exact ⟨_, rfl, by simp⟩

/-- A path has a dot if it has a second segment. -/
theorem dot_mem_iff {path head : String} {rest : List String}
    (segments : segmentsOf path = head :: rest)
    : '.' ∈ path.toList ↔ rest ≠ [] := by
  constructor
  · intro dot
    obtain ⟨before, after, split, plain⟩ := List.eq_append_cons_of_mem dot
    obtain ⟨others, cut, more⟩ := segmentsOf_of_dot plain split
    obtain ⟨-, rfl⟩ := List.cons.inj (segments.symm.trans cut)
    exact more
  · intro more
    by_contra plain
    rw [segmentsOf, List.splitOn_eq_singleton plain] at segments
    exact more (List.cons.inj segments).2.symm

/-- A path starts with a name and a dot if the name is its first segment and not its last. -/
theorem isPrefix_iff {path name head : String} {rest : List String} (plain : '.' ∉ name.toList)
    (segments : segmentsOf path = head :: rest)
    : (name ++ ".").toList <+: path.toList ↔ head = name ∧ rest ≠ [] := by
  constructor
  · rintro ⟨after, starts⟩
    have split : path.toList = name.toList ++ '.' :: after := by
      rw [← starts]
      simp
    obtain ⟨others, cut, more⟩ := segmentsOf_of_dot plain split
    obtain ⟨rfl, rfl⟩ := List.cons.inj (segments.symm.trans cut)
    exact ⟨String.ofList_toList, more⟩
  · rintro ⟨same, more⟩
    obtain ⟨before, after, split, first⟩ :=
      List.eq_append_cons_of_mem ((dot_mem_iff segments).mpr more)
    obtain ⟨others, cut, -⟩ := segmentsOf_of_dot first split
    obtain ⟨rfl, -⟩ := List.cons.inj (segments.symm.trans cut)
    refine ⟨after, ?_⟩
    rw [split, ← same]
    simp

-----------------------------------------------------------------------------------------
-- The rules
-----------------------------------------------------------------------------------------

namespace VariableResolver

/-- What a path gives is the same whatever the catalog and the rows are, also where they answer no
call.
-/
def Unread (r : VariableResolver) (bindings : VariableBindings) (path : String) : Prop :=
  ∀ catalog rows,
    ({ r with catalog, rows } : VariableResolver).resolve path bindings = r.resolve path bindings

/-- The rule for a path whose first segment is bound to a single value. -/
structure PlainRule (r : VariableResolver) (bindings : VariableBindings) (path : String)
    (slots : ValueSlots) : Prop where
  value_iff : (∃ v, (r.resolve path bindings).outcome = .ok (some v)) ↔ '.' ∉ path.toList
  unknown_iff : (r.resolve path bindings).outcome = .error (.unknownPath path) ↔ '.' ∈ path.toList
  /-- A text alone is read as a number where a number is wanted. -/
  number {s : String} {v : Value} (alone : slots = { text := some s })
    (wanted : r.resultAs = .number) (found : (r.resolve path bindings).outcome = .ok (some v))
    : v = .number (Value.text s).toNumber
  /-- Everything else is the value in the slots. -/
  value {v : Value} (other : ¬(r.resultAs = .number ∧ ∃ s, slots = { text := some s }))
    (found : (r.resolve path bindings).outcome = .ok (some v))
    : v = slots.toValue

/-- The rule for a path whose first segment is bound to a row of an entity. -/
structure RowRule (r : VariableResolver) (bindings : VariableBindings) (path entity : String)
    : Prop where
  unknown_iff
    : (r.resolve path bindings).outcome = .error (.unknownPath path)
      ↔ (segmentsOf path).length ≠ 3 ∧ (segmentsOf path).length ≠ 4
  unread
    : (r.resolve path bindings).outcome = .error (.unknownPath path) → r.Unread bindings path
  /-- Any other path fails if the schema of the entity is not found, whatever the rows are. -/
  reaches
    : (segmentsOf path).length = 3 ∨ (segmentsOf path).length = 4
      → ∀ (catalog : Catalog) rows cause,
          catalog.entity entity = .error cause
          → ({ r with catalog, rows } : VariableResolver).resolve path bindings
            = .fail (.store cause)

/-- A path starts with a reserved name and a dot. -/
def StartsReserved (path name : String) : Prop :=
  name ∈ ["user", "tenant"] ∧ (name ++ ".").toList <+: path.toList

end VariableResolver

-----------------------------------------------------------------------------------------
-- Failures behind a row
-----------------------------------------------------------------------------------------

/-- A failure that is not about the form of a path. -/
def ResolutionError.AboutRow : ResolutionError → Prop
  | unknownPath _ | unsupportedNamespace _ => False
  | _ => True

namespace Reading

variable {α β : Type}

/-- Whatever a reading fails for is not about the form of a path. -/
def FailsAboutRow (r : Reading α) : Prop :=
  ∀ cause, r.outcome = .error cause → cause.AboutRow

theorem failsAboutRow_pure (a : α) : (Pure.pure a : Reading α).FailsAboutRow :=
  nofun

theorem failsAboutRow_visit (id : String) : (visit id).FailsAboutRow :=
  nofun

theorem failsAboutRow_fail {cause : ResolutionError} (about : cause.AboutRow)
    : (fail cause : Reading α).FailsAboutRow := by
  rintro _ ⟨rfl⟩
  exact about

theorem failsAboutRow_ofStore (answer : Except StoreError α) : (ofStore answer).FailsAboutRow := by
  cases answer with
  | error cause => exact failsAboutRow_fail trivial
  | ok a => exact failsAboutRow_pure a

theorem FailsAboutRow.bind {r : Reading α} {next : α → Reading β} (first : r.FailsAboutRow)
    (second : ∀ a, (next a).FailsAboutRow)
    : (r >>= next).FailsAboutRow := by
  intro cause failed
  rw [outcome_bind] at failed
  cases found : r.outcome with
  | error earlier =>
      rw [found] at failed
      obtain rfl := Except.error.inj failed
      exact first earlier found
  | ok a =>
      rw [found] at failed
      exact second a cause failed

theorem FailsAboutRow.forEach {read : α → Reading β} {items : List α}
    (each : ∀ item, (read item).FailsAboutRow)
    : (forEach read items).FailsAboutRow := by
  induction items with
  | nil => exact failsAboutRow_pure []
  | cons item rest ih => exact (each item).bind fun _ => ih.bind fun _ => failsAboutRow_pure _

end Reading

theorem Aggregator.failsAboutRow_ofName (name : String)
    : (Reading.ofExcept (ofName name)).FailsAboutRow := by
  intro cause failed
  rw [Reading.outcome_ofExcept] at failed
  unfold ofName at failed
  split at failed <;> cases failed <;> trivial

namespace VariableResolver

variable {r : VariableResolver} {path property : String} {schema : EntitySchema}
  {function : Option String}

theorem failsAboutRow_rawValue (row : Row) : (r.rawValue schema row property).FailsAboutRow := by
  simp only [rawValue]
  split
  · exact Reading.failsAboutRow_pure _
  · split
    · exact Reading.failsAboutRow_fail trivial
    · exact Reading.failsAboutRow_ofStore _

theorem failsAboutRow_ownValue (row : Row)
    : (r.ownValue schema row property function).FailsAboutRow := by
  refine (failsAboutRow_rawValue row).bind fun v => ?_
  cases function with
  | none => exact Reading.failsAboutRow_pure _
  | some name =>
      exact (Aggregator.failsAboutRow_ofName name).bind fun _ => Reading.failsAboutRow_pure _

theorem failsAboutRow_relatedValue (rows : List Row)
    : (r.relatedValue path schema property function rows).FailsAboutRow := by
  match rows with
  | [] =>
      simp only [relatedValue]
      cases schema.property? property with
      | none => exact Reading.failsAboutRow_pure _
      | some declared => exact Reading.failsAboutRow_ofStore _
  | [row] => exact (Reading.failsAboutRow_visit row.id).bind fun _ => failsAboutRow_ownValue row
  | first :: second :: others =>
      cases function with
      | none => exact Reading.failsAboutRow_fail trivial
      | some name =>
          refine (Aggregator.failsAboutRow_ofName name).bind fun f => ?_
          refine .bind (.forEach fun row => ?_) fun _ => Reading.failsAboutRow_pure _
          exact (Reading.failsAboutRow_visit row.id).bind fun _ => failsAboutRow_rawValue row

/-- A path that has started from a row fails for no reason that is about its form. -/
theorem failsAboutRow_resolveOnRow (entity item target : String)
    : (r.resolveOnRow path entity item target property function).FailsAboutRow := by
  refine (Reading.failsAboutRow_ofStore _).bind fun schema => ?_
  refine (Reading.failsAboutRow_ofStore _).bind fun row => ?_
  refine (Reading.failsAboutRow_visit row.id).bind fun _ => ?_
  split
  · exact failsAboutRow_ownValue row
  · split
    · exact Reading.failsAboutRow_fail trivial
    · refine (Reading.failsAboutRow_ofStore _).bind fun related => ?_
      split
      · exact Reading.failsAboutRow_fail trivial
      · exact (Reading.failsAboutRow_ofStore _).bind failsAboutRow_relatedValue

-----------------------------------------------------------------------------------------
-- What the bindings decide
-----------------------------------------------------------------------------------------

theorem plainValue_number {s : String} (wanted : r.resultAs = .number)
    : r.plainValue { text := some s } = .number (Value.text s).toNumber := by
  simp only [VariableScope.plainValue, wanted]
  rfl

theorem plainValue_other {slots : ValueSlots}
    (other : ¬(r.resultAs = .number ∧ ∃ s, slots = { text := some s }))
    : r.plainValue slots = slots.toValue := by
  unfold VariableScope.plainValue
  split
  · next s wanted => exact absurd ⟨wanted, s, rfl⟩ other
  · rfl

section

variable {bindings : VariableBindings} {binding : String} {rest : List String}
  (segments : segmentsOf path = binding :: rest)

include segments

theorem startsReserved_iff {name : String}
    : StartsReserved path name ↔ binding = name ∧ binding ∈ reservedNames ∧ rest ≠ [] := by
  have plain (listed : name ∈ ["user", "tenant"]) : '.' ∉ name.toList := by
    simp only [List.mem_cons, List.not_mem_nil, or_false] at listed
    rcases listed with rfl | rfl <;> decide
  constructor
  · rintro ⟨listed, starts⟩
    obtain ⟨rfl, more⟩ := (isPrefix_iff (plain listed) segments).mp starts
    exact ⟨rfl, listed, more⟩
  · rintro ⟨rfl, listed, more⟩
    exact ⟨listed, (isPrefix_iff (plain listed) segments).mpr ⟨rfl, more⟩⟩

theorem resolve_of_reserved (reserved : binding ∈ reservedNames) (more : rest ≠ [])
    : r.resolve path bindings = .fail (.unsupportedNamespace binding) := by
  simp [resolve_eq, segments_eq, segments, reserved, more]

variable (free : ¬(binding ∈ reservedNames ∧ rest ≠ []))

include free

theorem resolve_of_plain {slots : ValueSlots} (bound : bindings.get? binding = some (.plain slots))
    : r.resolve path bindings
      = if rest = [] then .pure (some (r.plainValue slots)) else .fail (.unknownPath path) := by
  simp only [resolve_eq, segments_eq, segments, List.head?_cons, Option.getD_some, List.tail_cons,
    passes_of_free free, Bool.false_eq_true, if_false, bound, List.isEmpty_iff]

theorem resolve_of_row_unknown {entity item : String}
    (bound : bindings.get? binding = some (.row entity item)) (notTwo : rest.length ≠ 2)
    (notThree : rest.length ≠ 3)
    : r.resolve path bindings = .fail (.unknownPath path) := by
  simp only [resolve_eq, segments_eq, segments, List.head?_cons, Option.getD_some, List.tail_cons,
    passes_of_free free, Bool.false_eq_true, if_false, bound]
  split
  · simp at notTwo
  · simp at notThree
  · rfl

/-- A path from a row that has three or four segments goes on from the row. -/
theorem resolve_of_row_length {entity item : String}
    (bound : bindings.get? binding = some (.row entity item))
    (length : rest.length = 2 ∨ rest.length = 3)
    : ∃ target property function,
        ∀ r : VariableResolver,
          r.resolve path bindings
          = some <$> r.resolveOnRow path entity item target property function := by
  have more : rest ≠ [] := by
    rintro rfl
    simp at length
  have unreserved : binding ∉ reservedNames := fun reserved => free ⟨reserved, more⟩
  rcases length with two | three
  · obtain ⟨target, property, rfl⟩ := List.length_eq_two.mp two
    exact ⟨target, property, none, fun r =>
      resolve_of_row ((segments_eq path).trans segments) unreserved bound⟩
  · obtain ⟨target, property, function, rfl⟩ := List.length_eq_three.mp three
    exact ⟨target, property, some function, fun r =>
      resolve_of_row ((segments_eq path).trans segments) unreserved bound⟩

theorem plainRule_of_bound {slots : ValueSlots}
    (bound : bindings.get? binding = some (.plain slots))
    : r.PlainRule bindings path slots := by
  have resolved := resolve_of_plain (r := r) segments free bound
  have dot := dot_mem_iff segments
  by_cases alone : rest = []
  · rw [if_pos alone] at resolved
    have found : (r.resolve path bindings).outcome = .ok (some (r.plainValue slots)) := by
      rw [resolved]
      rfl
    constructor
    · simp [found, dot, alone]
    · simp [found, dot, alone]
    · rintro s v rfl wanted given
      rw [found, plainValue_number wanted] at given
      exact (Option.some.inj (Except.ok.inj given)).symm
    · intro v other given
      rw [found, plainValue_other other] at given
      exact (Option.some.inj (Except.ok.inj given)).symm
  · rw [if_neg alone] at resolved
    have refused : (r.resolve path bindings).outcome = .error (.unknownPath path) := by
      rw [resolved]
      rfl
    constructor
    · simp [refused, dot, alone]
    · simp [refused, dot, alone]
    · simp [refused]
    · simp [refused]

theorem rowRule_of_bound {entity item : String}
    (bound : bindings.get? binding = some (.row entity item))
    : r.RowRule bindings path entity := by
  have length : (segmentsOf path).length = rest.length + 1 := congrArg List.length segments
  by_cases fits : rest.length = 2 ∨ rest.length = 3
  · obtain ⟨target, property, function, onward⟩ :=
      resolve_of_row_length segments free bound fits
    have known : (r.resolve path bindings).outcome ≠ .error (.unknownPath path) := by
      rw [onward, Reading.outcome_map, ne_eq, Except.map_eq_error_iff]
      exact failsAboutRow_resolveOnRow entity item target _
    constructor
    · constructor
      · intro failed
        exact absurd failed known
      · rintro ⟨notThree, notFour⟩
        omega
    · intro failed
      exact absurd failed known
    · intro _ catalog rows cause missing
      simp only [onward, resolveOnRow, missing]
      rfl
  · obtain ⟨notTwo, notThree⟩ := not_or.mp fits
    have refused (r : VariableResolver) : r.resolve path bindings = .fail (.unknownPath path) :=
      resolve_of_row_unknown segments free bound notTwo notThree
    constructor
    · constructor
      · intro _
        omega
      · intro _
        rw [refused]
        rfl
    · intro _ catalog rows
      rw [refused, refused]
    · intro _
      omega

/-- A path that does not start with a reserved name and a dot is not refused as if it did, and has
no value only where its first segment is not bound.
-/
theorem outcome_of_free
    : (∀ name, (r.resolve path bindings).outcome ≠ .error (.unsupportedNamespace name))
      ∧ ((r.resolve path bindings).outcome = .ok none ↔ bindings.get? binding = none) := by
  cases bound : bindings.get? binding with
  | none =>
      rw [resolve_of_unbound ((segments_eq path).trans segments) free bound]
      simp [Reading.pure]
  | some given =>
      cases given with
      | plain slots =>
          rw [resolve_of_plain segments free bound]
          split <;> simp [Reading.pure, Reading.fail]
      | row entity item =>
          by_cases fits : rest.length = 2 ∨ rest.length = 3
          · obtain ⟨target, property, function, onward⟩ :=
              resolve_of_row_length segments free bound fits
            rw [onward, Reading.outcome_map]
            simp only [Except.map_eq_error_iff, Except.map_eq_ok_iff, ne_eq]
            refine ⟨fun name => failsAboutRow_resolveOnRow entity item target _, ?_⟩
            simp
          · obtain ⟨notTwo, notThree⟩ := not_or.mp fits
            rw [resolve_of_row_unknown segments free bound notTwo notThree]
            simp [Reading.fail]

theorem unread_of_unbound (unbound : bindings.get? binding = none) : r.Unread bindings path := by
  intro catalog rows
  have named := (segments_eq path).trans segments
  rw [resolve_of_unbound named free unbound, resolve_of_unbound named free unbound]

end

end VariableResolver

open VariableResolver in
/-- The grammar of paths. A path that starts with a reserved name and a dot is refused, whatever is
bound. Any other path is cut at every dot. It has no value, and no store is asked, exactly when its
first segment is not bound. Where that is bound to a single value the path may not go on. Where it
is bound to a row the path must have three or four segments, which is settled before any store is
asked, and a path of that length goes on to look up the schema of the row's entity.
-/
theorem path_grammar (r : VariableResolver) (path : String) (bindings : VariableBindings)
    : let outcome := (r.resolve path bindings).outcome
      (∀ name, outcome = .error (.unsupportedNamespace name) ↔ StartsReserved path name)
      ∧ ((∀ name, ¬StartsReserved path name)
        → ∃ head,
            (segmentsOf path).head? = some head
            ∧ (outcome = .ok none ↔ bindings.get? head = none)
            ∧ (outcome = .ok none → r.Unread bindings path)
            ∧ (∀ slots,
                bindings.get? head = some (.plain slots) → r.PlainRule bindings path slots)
            ∧ ∀ entity item,
                bindings.get? head = some (.row entity item)
                → r.RowRule bindings path entity) := by
  intro outcome
  obtain ⟨head, rest, segments⟩ := segmentsOf_eq_cons path
  by_cases reserved : head ∈ reservedNames ∧ rest ≠ []
  · have refused : outcome = .error (.unsupportedNamespace head) := by
      simp only [outcome, resolve_of_reserved segments reserved.1 reserved.2]
      rfl
    constructor
    · intro name
      rw [startsReserved_iff segments, refused]
      simp [reserved]
    · intro free
      exact absurd ((startsReserved_iff segments).mpr ⟨rfl, reserved⟩) (free head)
  · obtain ⟨supported, unbound⟩ := outcome_of_free (r := r) segments reserved
    constructor
    · intro name
      rw [startsReserved_iff segments]
      exact iff_of_false (supported name) fun starts => reserved starts.2
    · intro _
      refine ⟨head, by rw [segments]; rfl, unbound, ?_, ?_, ?_⟩
      · intro none
        exact unread_of_unbound segments reserved (unbound.mp none)
      · intro slots bound
        exact plainRule_of_bound segments reserved bound
      · intro entity item bound
        exact rowRule_of_bound segments reserved bound

open VariableResolver in
/-- A name that is reserved may be bound, but not be followed by a dot. Here the text bound to it is
read as a number, the path of a row is too short, and the entity of a row has no schema.
-/
theorem path_grammar_user
    : let r : VariableResolver :=
        { catalog := {}, rows := { store := {} }, resultAs := .number }
      let bindings : VariableBindings :=
        .ofList [("user", .plain { text := some "7" }), ("row", .row "task" "t")]
      let outcome (path : String) := (r.resolve path bindings).outcome
      outcome "user.name" = .error (.unsupportedNamespace "user")
      ∧ outcome "users.name" = .ok none
      ∧ r.Unread bindings "users.name"
      ∧ outcome "user" = .ok (some (.number (Value.text "7").toNumber))
      ∧ outcome "row.task" = .error (.unknownPath "row.task")
      ∧ r.Unread bindings "row.task"
      ∧ r.resolve "row.task.size" bindings = .fail (.store (.entityNotFound "task")) := by
  intro r bindings outcome
  have reserved : StartsReserved "user.name" "user" := by
    constructor <;> decide
  have free {path : String}
      (other : ∀ name ∈ ["user", "tenant"], ¬(name ++ ".").toList <+: path.toList)
      : ∀ name, ¬StartsReserved path name :=
    fun name ⟨listed, starts⟩ => other name listed starts
  have refused : outcome "user.name" = .error (.unsupportedNamespace "user") :=
    ((path_grammar r "user.name" bindings).1 "user").mpr reserved
  obtain ⟨users, first, unbound, unread, -⟩ :=
    (path_grammar r "users.name" bindings).2 (free (by decide))
  obtain rfl : "users" = users := Option.some.inj first
  have none : outcome "users.name" = .ok none := unbound.mpr rfl
  obtain ⟨user, first, -, -, plain, -⟩ := (path_grammar r "user" bindings).2 (free (by decide))
  obtain rfl : "user" = user := Option.some.inj first
  have alone := plain { text := some "7" } rfl
  obtain ⟨v, found⟩ := alone.value_iff.mpr (by decide)
  obtain rfl := alone.number rfl rfl found
  obtain ⟨row, first, -, -, -, onRow⟩ := (path_grammar r "row.task" bindings).2 (free (by decide))
  obtain rfl : "row" = row := Option.some.inj first
  have short := onRow "task" "t" rfl
  have unknown : outcome "row.task" = .error (.unknownPath "row.task") :=
    short.unknown_iff.mpr (by decide)
  obtain ⟨row, first, -, -, -, onRow⟩ :=
    (path_grammar r "row.task.size" bindings).2 (free (by decide))
  obtain rfl : "row" = row := Option.some.inj first
  have long := (onRow "task" "t" rfl).reaches (by decide) r.catalog r.rows _ rfl
  exact ⟨refused, none, unread none, found, unknown, short.unread unknown, long⟩

end RowFormula
