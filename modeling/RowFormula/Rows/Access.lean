import RowFormula.Rows.Store

/-! Access to rows that may fail. A failing call changes nothing. -/

namespace RowFormula

/-- A call to a row store with everything it is given. -/
inductive StoreCall where
  | row (entity row : String)
  | readProperty (entity row property : String)
  | writeProperty (entity row property : String) (slots : ValueSlots)
  | relatedRows (entity row relationship : String)
  | propertyDefault (property : PropertySchema)

/-- The calls that fail, each with its reason. A call fails or works each time it is made with the
same arguments: calls that work only now and then are not described.
-/
abbrev Outage := StoreCall → Option String

/-- No call fails. -/
def Outage.none : Outage := fun _ => .none

/-- A row store of which some calls fail. -/
structure RowAccess where
  store : RowStore
  outage : Outage := .none

namespace RowAccess

/-- The answer to a call, unless the call fails. -/
def guarded {α : Type} (a : RowAccess) (call : StoreCall) (answer : Except StoreError α)
    : Except StoreError α :=
  match a.outage call with
  | some reason => .error (.backend reason)
  | none => answer

def row (a : RowAccess) (entity row : String) : Except StoreError Row :=
  a.guarded (.row entity row) (a.store.row entity row)

def readProperty (a : RowAccess) (entity row property : String) : Except StoreError Value :=
  a.guarded (.readProperty entity row property) (a.store.readProperty entity row property)

def writeProperty (a : RowAccess) (entity row property : String) (slots : ValueSlots)
    : Except StoreError RowStore :=
  a.guarded (.writeProperty entity row property slots)
    (a.store.writeProperty entity row property slots)

/-- The first half of a write: its value is stored, and the journal does not have it yet. -/
def beginWrite (a : RowAccess) (w : WriteRecord) : Except StoreError RowStore :=
  a.guarded (.writeProperty w.entity w.row w.property w.slots)
    (a.store.setValue w.entity w.row w.property w.slots.toValue)

/-- The rows related to a row through a relationship. -/
def relatedRows (a : RowAccess) (entity row relationship : String)
    : Except StoreError (List Row) :=
  a.guarded (.relatedRows entity row relationship)
    (a.store.relatedRows entity row relationship)

def propertyDefault (a : RowAccess) (property : PropertySchema) : Except StoreError Value :=
  a.guarded (.propertyDefault property) (.ok property.default)

end RowAccess

/-- A call that only reads. Writes change neither rows nor relations, so that related rows are read
in one call.
-/
inductive ReadCall where
  | row (entity row : String)
  | readProperty (entity row property : String)
  | relatedRows (entity row relationship : String)
  | propertyDefault (property : PropertySchema)

/-- What a call answers that does not fail. -/
abbrev ReadCall.Answer : ReadCall → Type
  | row .. => Row
  | readProperty .. => Value
  | relatedRows .. => List Row
  | propertyDefault _ => Value

def RowAccess.answer (a : RowAccess) : (call : ReadCall) → Except StoreError call.Answer
  | .row entity row => a.row entity row
  | .readProperty entity row property => a.readProperty entity row property
  | .relatedRows entity row relationship => a.relatedRows entity row relationship
  | .propertyDefault property => a.propertyDefault property

end RowFormula
