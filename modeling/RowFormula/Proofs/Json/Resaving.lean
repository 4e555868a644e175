import RowFormula.Json.Record
import RowFormula.Json.Table

/-! Reading what was written after reading.

A reader may accept many trees for one datum, and its writer produces one of them. What
matters is that nothing is lost on the way: the datum is read again from the tree that it is
written as. The property is lifted from the parts of a tree to its fields, lists and tables.
-/

namespace RowFormula

namespace Json

variable {α : Type} {read : Json → Option α} {write : α → Json}

/-- Whatever is read from a tree is read again from the tree that it is written as. -/
def Resaves (read : Json → Option α) (write : α → Json) : Prop :=
  ∀ json a, read json = some a → read (write a) = some a

/-- A finite double is written as itself. -/
theorem toFloat?_ofFloat {x : Float} (finite : x.isFinite = true)
    : toFloat? (ofFloat x) = some x := by
  simp only [ofFloat, finite, if_true, toFloat?]

/-- Only finite doubles are read, whether from a double or from an integer. -/
theorem isFinite_of_toFloat? {json : Json} {x : Float} (given : toFloat? json = some x)
    : x.isFinite = true := by
  cases json with
  | real y =>
      obtain ⟨finite, same⟩ := Option.ite_none_right_eq_some.mp given
      obtain rfl := Option.some.inj same
      exact finite
  | integer n =>
      obtain ⟨finite, same⟩ := Option.ite_none_right_eq_some.mp given
      obtain rfl := Option.some.inj same
      exact finite
  | null | bool _ | text _ | array _ | object _ | unreadable => cases given

theorem resaves_float : Resaves toFloat? ofFloat :=
  fun _ _ given => toFloat?_ofFloat (isFinite_of_toFloat? given)

/-- A choice is written as its name. -/
theorem resaves_choice {emptyAllowed : Bool} {ofName : String → Option α} {name : α → String}
    (named : ∀ a, ofName (name a) = some a)
    : Resaves (choice? emptyAllowed ofName) (fun a => .text (name a)) :=
  fun _ a _ => named a

/-- A choice is read by a name. -/
theorem exists_name_of_choice? {emptyAllowed : Bool} {ofName : String → Option α} {json : Json}
    {a : α} (given : choice? emptyAllowed ofName json = some a)
    : ∃ name, ofName name = some a := by
  unfold choice? at given
  split at given
  case h_1 name => exact ⟨name, given⟩
  case h_2 name => exact ⟨name, given⟩
  case h_3 name =>
    obtain ⟨-, found⟩ := Option.ite_none_right_eq_some.mp given
    exact ⟨name, found⟩
  case h_4 => cases given

namespace Resaves

theorem required (saved : Resaves read write) {r : Record} {name : String} {a : α}
    (given : r.required name read = some a)
    : read (write a) = some a := by
  obtain ⟨json, -, found⟩ := Option.bind_eq_some_iff.mp given
  exact saved json a found

/-- A field with a default holds what was read for it or the default. -/
theorem defaulted (saved : Resaves read write) {r : Record} {name : String} {default a : α}
    (fallback : read (write default) = some default)
    (given : r.defaulted name read default = some a)
    : read (write a) = some a := by
  unfold Record.defaulted at given
  cases field : r.field name with
  | none =>
      rw [field] at given
      obtain rfl := Option.some.inj given
      exact fallback
  | some json =>
      rw [field] at given
      exact saved json a given

/-- A value that is held by an optional field was read for it. -/
theorem optional (saved : Resaves read write) {r : Record} {name : String} {a : α}
    (given : r.optional name read = some (some a))
    : read (write a) = some a := by
  unfold Record.optional Record.defaulted at given
  cases field : r.field name with
  | none =>
      rw [field] at given
      cases given
  | some json =>
      rw [field] at given
      cases json with
      | null => cases given
      | bool _ | integer _ | real _ | text _ | array _ | object _ | unreadable =>
          obtain ⟨found, readsAs, same⟩ := Option.map_eq_some_iff.mp given
          obtain rfl := Option.some.inj same
          exact saved _ found readsAs

/-- A list is resaved item by item, by induction on the trees of its items. -/
theorem items (saved : Resaves read write)
    : Resaves (items? read) (fun as => .array (as.map write)) := by
  have resaveAll (trees : List Json) (as : List α) (given : trees.mapM read = some as)
      : (as.map write).mapM read = some as := by
    induction trees generalizing as with
    | nil =>
        obtain rfl := Option.some.inj given
        rfl
    | cons tree rest ih =>
        rw [List.mapM_cons] at given
        obtain ⟨a, first, others⟩ := Option.bind_eq_some_iff.mp given
        obtain ⟨bs, later, same⟩ := Option.bind_eq_some_iff.mp others
        obtain rfl := Option.some.inj same
        rw [List.map_cons, List.mapM_cons, saved tree a first, ih bs later]
        rfl
  intro json as given
  cases json with
  | array trees => exact resaveAll trees as given
  | null | bool _ | integer _ | real _ | text _ | object _ | unreadable => cases given

/-- The entries that are read from fields were each read from one of the fields. -/
theorem of_mem_entries? (saved : Resaves read write) {fields : List (String × Json)}
    {entries : List (String × α)} (given : Table.entries? read fields = some entries)
    : ∀ entry ∈ entries, read (write entry.2) = some entry.2 := by
  induction fields generalizing entries with
  | nil =>
      obtain rfl := Option.some.inj given
      intro entry listed
      cases listed
  | cons field rest ih =>
      obtain ⟨key, json⟩ := field
      unfold Table.entries? at given
      cases first : read json with
      | none => simp only [first] at given; cases given
      | some value =>
          cases later : Table.entries? read rest with
          | none => simp only [first, later] at given; cases given
          | some others =>
              simp only [first, later, Option.some.injEq] at given
              subst given
              intro entry listed
              rcases List.mem_cons.mp listed with rfl | other
              · exact saved json value first
              · exact ih later entry other

/-- A table is written with each of its keys once, so that it is read again entry by entry. -/
theorem table (saved : Resaves read write)
    : Resaves (Table.ofJson? read) (Table.toJson write) := by
  have readAll (entries : List (String × α))
      (each : ∀ entry ∈ entries, read (write entry.2) = some entry.2)
      : Table.entries? read (entries.map fun entry => (entry.1, write entry.2))
        = some entries := by
    induction entries with
    | nil => rfl
    | cons entry rest ih =>
        have later := ih fun other listed => each other (List.mem_cons_of_mem entry listed)
        simp only [List.map_cons, Table.entries?, each entry List.mem_cons_self, later]
  intro json t given
  cases json with
  | object fields =>
      obtain ⟨entries, found, rfl⟩ := Option.map_eq_some_iff.mp given
      have each := fun entry listed =>
        saved.of_mem_entries? found entry (Table.mem_of_mem_ofList listed)
      rw [Table.toJson, Table.ofJson?, readAll _ each, Option.map_some,
        Table.ofList_entries _ (Table.nodup_keys_ofList entries)]
  | null | bool _ | integer _ | real _ | text _ | array _ | unreadable => cases given

end Resaves

end Json

end RowFormula
