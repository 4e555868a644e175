/-! Outcomes that are a value or an error: what it takes for a chain of them to succeed. -/

/-- What is found in a list behind items that all pass is found at its head, or else behind a head
that passes.
-/
theorem List.exists_split_cons_iff {α : Type} {passes found : α → Prop} {head : α}
    {rest : List α}
    : (∃ before item after,
          head :: rest = before ++ item :: after
          ∧ (∀ earlier ∈ before, passes earlier)
          ∧ found item)
      ↔ found head
        ∨ passes head
          ∧ ∃ before item after,
              rest = before ++ item :: after
              ∧ (∀ earlier ∈ before, passes earlier)
              ∧ found item := by
  constructor
  · rintro ⟨before, item, after, split, passed, here⟩
    cases before with
    | nil =>
        obtain ⟨rfl, rfl⟩ := List.cons.inj split
        exact .inl here
    | cons first others =>
        obtain ⟨rfl, rfl⟩ := List.cons.inj split
        obtain ⟨one, more⟩ := List.forall_mem_cons.mp passed
        exact .inr ⟨one, others, item, after, rfl, more, here⟩
  · rintro (here | ⟨one, before, item, after, rfl, more, here⟩)
    · exact ⟨[], head, rest, rfl, by simp, here⟩
    · exact ⟨head :: before, item, after, rfl, List.forall_mem_cons.mpr ⟨one, more⟩, here⟩

namespace Except

variable {ε α β : Type}

theorem map_eq_ok_iff {outcome : Except ε α} {f : α → β} {b : β}
    : outcome.map f = .ok b ↔ ∃ a, outcome = .ok a ∧ f a = b := by
  cases outcome <;> simp [Except.map]

theorem map_eq_error_iff {outcome : Except ε α} {f : α → β} {e : ε}
    : outcome.map f = .error e ↔ outcome = .error e := by
  cases outcome <;> simp [Except.map]

theorem exists_map_eq_ok_iff {outcome : Except ε α} {f : α → β}
    : (∃ b, outcome.map f = .ok b) ↔ ∃ a, outcome = .ok a := by
  cases outcome <;> simp [Except.map]

theorem bind_eq_ok_iff {outcome : Except ε α} {next : α → Except ε β} {b : β}
    : outcome.bind next = .ok b ↔ ∃ a, outcome = .ok a ∧ next a = .ok b := by
  cases outcome <;> simp [Except.bind]

@[simp] theorem mapError_ok {δ : Type} (f : ε → δ) (a : α)
    : (ok a : Except ε α).mapError f = ok a :=
  rfl

@[simp] theorem mapError_error {δ : Type} (f : ε → δ) (e : ε)
    : (error e : Except ε α).mapError f = error (f e) :=
  rfl

theorem mapError_eq_ok_iff {δ : Type} {outcome : Except ε α} {f : ε → δ} {a : α}
    : outcome.mapError f = .ok a ↔ outcome = .ok a := by
  cases outcome <;> simp

/-- Outcomes that succeed alike fail alike, though perhaps for different reasons. -/
theorem exists_error_iff_of_ok_iff {δ : Type} {outcome : Except ε α} {other : Except δ α}
    (same : ∀ a, outcome = .ok a ↔ other = .ok a)
    : (∃ e, outcome = .error e) ↔ ∃ e, other = .error e := by
  cases outcome with
  | ok a => simp [(same a).mp rfl]
  | error e =>
      cases other with
      | ok a => simpa using same a
      | error cause => simp

/-- Doing something with each item succeeds exactly when every part does, by induction on the
items.
-/
theorem mapM_eq_ok_iff {f : α → Except ε β} {items : List α} {results : List β}
    : items.mapM f = .ok results ↔ items.map f = results.map .ok := by
  induction items generalizing results with
  | nil => cases results <;> simp [pure, Except.pure]
  | cons item rest ih =>
      rw [List.mapM_cons, List.map_cons]
      cases first : f item with
      | error cause => cases results <;> simp [bind, Except.bind]
      | ok a =>
          change (rest.mapM f).bind (fun others => .ok (a :: others)) = .ok results ↔ _
          rw [bind_eq_ok_iff]
          cases results with
          | nil => simp
          | cons b others =>
              simp only [Except.ok.injEq, List.cons.injEq, List.map_cons, ih]
              constructor
              · rintro ⟨read, same, rfl, rfl⟩
                exact ⟨rfl, same⟩
              · rintro ⟨rfl, same⟩
                exact ⟨others, same, rfl, rfl⟩

/-- Doing something with each item fails for the first item for which it does, by induction on
the items.
-/
theorem mapM_eq_error_iff {f : α → Except ε β} {items : List α} {e : ε}
    : items.mapM f = .error e
      ↔ ∃ before item after,
          items = before ++ item :: after
          ∧ (∀ earlier ∈ before, ∃ b, f earlier = .ok b)
          ∧ f item = .error e := by
  induction items with
  | nil => simp [pure, Except.pure]
  | cons head rest ih =>
      rw [List.exists_split_cons_iff, ← ih, List.mapM_cons]
      cases first : f head with
      | error cause => simp [bind, Except.bind]
      | ok a =>
          cases rest.mapM f <;> simp [bind, Except.bind, pure, Except.pure]

/-- Looking up each item fails at the first that is not found, by induction on the items. -/
theorem mapM_lookup {lookup : α → Option β} {missing : α → ε} {f : α → Except ε β}
    (found : ∀ a b, lookup a = some b → f a = .ok b)
    (notFound : ∀ a, lookup a = none → f a = .error (missing a)) (items : List α)
    : items.mapM f
      = match items.find? fun a => (lookup a).isNone with
        | some a => .error (missing a)
        | none => .ok (items.filterMap lookup) := by
  induction items with
  | nil => rfl
  | cons item rest ih =>
      rw [List.mapM_cons]
      cases first : lookup item with
      | none =>
          rw [notFound item first, List.find?_cons_of_pos (by simp [first])]
          rfl
      | some b =>
          rw [found item b first, List.find?_cons_of_neg (by simp [first]), ih,
            List.filterMap_cons_some first]
          cases rest.find? fun a => (lookup a).isNone <;> rfl

/-- If a step succeeds exactly on the items that fit, and what it then makes of the state is
known, then taking a step for each item succeeds exactly when all of them fit, by induction on
the items.
-/
theorem foldlM_eq_ok_iff {σ : Type} {step : σ → α → Except ε σ} {fits : α → Prop}
    {next : σ → α → σ}
    (step_eq_ok_iff : ∀ s item t, step s item = .ok t ↔ fits item ∧ t = next s item)
    {items : List α} {s t : σ}
    : items.foldlM step s = .ok t
      ↔ (∀ item ∈ items, fits item) ∧ t = items.foldl next s := by
  induction items generalizing s with
  | nil => simp [pure, Except.pure, eq_comm]
  | cons item rest ih =>
      rw [List.foldlM_cons, List.foldl_cons, List.forall_mem_cons]
      change (step s item).bind (fun middle => rest.foldlM step middle) = .ok t ↔ _
      rw [bind_eq_ok_iff]
      simp only [step_eq_ok_iff, ih]
      constructor
      · rintro ⟨_, ⟨first, rfl⟩, others, rfl⟩
        exact ⟨⟨first, others⟩, rfl⟩
      · rintro ⟨⟨first, others⟩, rfl⟩
        exact ⟨_, ⟨first, rfl⟩, others, rfl⟩

end Except
