/-! Finite tables: each key has at most one value, and listing a table follows the order
in which its keys were last written.
-/

namespace RowFormula

/-- A finite table as a list of its entries. -/
structure Table (κ ν : Type) where
  entries : List (κ × ν) := []

namespace Table

variable {κ ν : Type} [BEq κ]

/-- The table without entries. -/
def empty : Table κ ν := {}

def get? (t : Table κ ν) (key : κ) : Option ν :=
  t.entries.lookup key

/-- The table in which a key has a new value and every other key the value it had. -/
def insert (t : Table κ ν) (key : κ) (value : ν) : Table κ ν :=
  ⟨t.entries.filter (fun entry => entry.1 != key) ++ [(key, value)]⟩

/-- The table written by the entries one after another, so that the last of a key wins. -/
def ofList (entries : List (κ × ν)) : Table κ ν :=
  entries.foldl (fun t entry => t.insert entry.1 entry.2) empty

/-- The keys in the order in which they were last written. -/
def keys (t : Table κ ν) : List κ :=
  t.entries.map (·.1)

/-- Nothing is found in the empty table. -/
@[simp] theorem get?_empty (key : κ) : (empty : Table κ ν).get? key = none := rfl

/-- A key that was just written has the new value and every other key the value it had, by
induction over the entries.
-/
theorem get?_insert [LawfulBEq κ] (t : Table κ ν) (key other : κ) (value : ν)
    : (t.insert key value).get? other
      = if other == key then some value else t.get? other := by
  obtain ⟨entries⟩ := t
  simp only [insert, get?]
  induction entries with
  | nil => cases h : other == key <;> simp [List.lookup_cons, h]
  | cons entry rest ih =>
      obtain ⟨k, v⟩ := entry
      by_cases hk : k = key
      · subst hk
        cases ho : other == k <;> simpa [List.lookup_cons, ho] using ih
      · cases ho : other == k with
        | true =>
            obtain rfl := eq_of_beq ho
            simp [hk]
        | false => simpa [hk, List.lookup_cons, ho] using ih

/-- Items that are written one after another leave the value of the last one with a key, by
induction on the items.
-/
theorem get?_foldl_insert [LawfulBEq κ] {α : Type} (key : α → κ) (value : α → ν)
    (items : List α) (t : Table κ ν) (k : κ)
    : (items.foldl (fun t item => t.insert (key item) (value item)) t).get? k
      = ((items.filter (key · == k)).getLast?.map value).or (t.get? k) := by
  induction items generalizing t with
  | nil => rfl
  | cons item rest ih =>
      rw [List.foldl_cons, ih, get?_insert, List.filter_cons]
      by_cases same : k = key item
      · subst same
        simp only [beq_self_eq_true, if_true, List.getLast?_cons]
        cases (rest.filter _).getLast? <;> rfl
      · have other : (k == key item) = false := by simpa using same
        have differs : (key item == k) = false := by simpa using Ne.symm same
        simp only [other, differs, Bool.false_eq_true, if_false]

theorem get?_ofList [LawfulBEq κ] (entries : List (κ × ν)) (k : κ)
    : (ofList entries).get? k = (entries.filter (·.1 == k)).getLast?.map (·.2) := by
  rw [ofList, get?_foldl_insert, get?_empty, Option.or_none]

/-- A table that is written by entries that do not contradict each other holds each of them. -/
theorem get?_ofList_eq_some_iff [LawfulBEq κ] {entries : List (κ × ν)}
    (agree : ∀ k v w, (k, v) ∈ entries → (k, w) ∈ entries → v = w) {k : κ} {v : ν}
    : (ofList entries).get? k = some v ↔ (k, v) ∈ entries := by
  have lasts {key : κ} {w : ν} (last : (entries.filter (·.1 == k)).getLast? = some (key, w))
      : key = k ∧ (key, w) ∈ entries := by
    obtain ⟨member, same⟩ := List.mem_filter.mp (List.mem_of_getLast? last)
    exact ⟨eq_of_beq same, member⟩
  rw [get?_ofList]
  constructor
  · intro found
    obtain ⟨⟨key, w⟩, last, rfl⟩ := Option.map_eq_some_iff.mp found
    obtain ⟨rfl, member⟩ := lasts last
    exact member
  · intro listed
    have kept : (k, v) ∈ entries.filter (·.1 == k) :=
      List.mem_filter.mpr ⟨listed, beq_self_eq_true k⟩
    cases found : (entries.filter (·.1 == k)).getLast? with
    | none =>
        rw [List.getLast?_eq_none_iff.mp found] at kept
        exact absurd kept List.not_mem_nil
    | some entry =>
        obtain ⟨key, w⟩ := entry
        obtain ⟨rfl, member⟩ := lasts found
        rw [Option.map_some, agree key v w listed member]

theorem keys_insert (t : Table κ ν) (key : κ) (value : ν)
    : (t.insert key value).keys = t.keys.filter (· != key) ++ [key] := by
  simp only [keys, insert, List.map_append, List.filter_map, List.map_cons, List.map_nil]
  rfl

/-- A key that is new is listed last. -/
theorem insert_of_not_mem [LawfulBEq κ] {t : Table κ ν} {key : κ} (new : key ∉ t.keys)
    (value : ν)
    : t.insert key value = ⟨t.entries ++ [(key, value)]⟩ := by
  have kept : t.entries.filter (fun entry => entry.1 != key) = t.entries := by
    apply List.filter_eq_self.mpr
    intro entry listed
    have other : entry.1 ≠ key := by
      intro same
      exact new (same ▸ List.mem_map_of_mem listed)
    simpa using other
  simp only [insert, kept]

/-- A table that is written by entries lists each key once, by induction on the entries. -/
theorem nodup_keys_ofList [LawfulBEq κ] (entries : List (κ × ν))
    : (ofList entries).keys.Nodup := by
  have writeAll (entries : List (κ × ν)) (t : Table κ ν) (once : t.keys.Nodup)
      : (entries.foldl (fun t entry => t.insert entry.1 entry.2) t).keys.Nodup := by
    induction entries generalizing t with
    | nil => exact once
    | cons entry rest ih =>
        apply ih
        rw [keys_insert]
        apply List.nodup_append.mpr
        refine ⟨once.filter _, List.pairwise_singleton _ _, ?_⟩
        intro other listed key same
        obtain ⟨-, differs⟩ := List.mem_filter.mp listed
        rw [List.mem_singleton.mp same]
        simpa using differs
  exact writeAll entries empty List.nodup_nil

/-- The entries of a table are among those that wrote it, by induction on them. -/
theorem mem_of_mem_ofList {entries : List (κ × ν)} {entry : κ × ν}
    (listed : entry ∈ (ofList entries).entries)
    : entry ∈ entries := by
  have written (entries : List (κ × ν)) (t : Table κ ν)
      (listed : entry ∈ (entries.foldl (fun t entry => t.insert entry.1 entry.2) t).entries)
      : entry ∈ t.entries ∨ entry ∈ entries := by
    induction entries generalizing t with
    | nil => exact .inl listed
    | cons first rest ih =>
        rcases ih _ listed with early | late
        · rcases List.mem_append.mp early with kept | new
          · exact .inl (List.mem_filter.mp kept).1
          · exact .inr (List.mem_cons.mpr (.inl (List.mem_singleton.mp new)))
        · exact .inr (List.mem_cons_of_mem first late)
  rcases written entries empty listed with absent | member
  · exact absurd absent List.not_mem_nil
  · exact member

/-- A table that lists each key once is written by its entries, by induction on them. -/
theorem ofList_entries [LawfulBEq κ] (t : Table κ ν) (once : t.keys.Nodup)
    : ofList t.entries = t := by
  have writeAll (entries : List (κ × ν)) (t : Table κ ν)
      (once : (t.keys ++ entries.map (·.1)).Nodup)
      : entries.foldl (fun t entry => t.insert entry.1 entry.2) t = ⟨t.entries ++ entries⟩ := by
    induction entries generalizing t with
    | nil => rw [List.append_nil]; rfl
    | cons entry rest ih =>
        have new : entry.1 ∉ t.keys := by
          intro listed
          obtain ⟨-, -, apart⟩ := List.nodup_append.mp once
          exact apart entry.1 listed entry.1 List.mem_cons_self rfl
        rw [List.foldl_cons, insert_of_not_mem new, ih]
        · simp only [List.append_assoc, List.singleton_append]
        · simpa [keys] using once
  exact writeAll t.entries empty once

end Table

end RowFormula
