import RowFormula.Formula.Basic

/-! Balanced components, and components of which some groups are still open. In either no
group is closed that was not opened, and the openings without a partner are those of the
groups that are still open.
-/

namespace RowFormula

def Component.isOpening (c : Component) : Bool :=
  match c.symbol with
  | .opening => true
  | _ => false

def Component.isClosing (c : Component) : Bool :=
  match c.symbol with
  | .closing => true
  | _ => false

/-- How many groups components open. -/
def openings (cs : List Component) : Nat :=
  cs.countP (·.isOpening)

/-- How many groups components close. -/
def closings (cs : List Component) : Nat :=
  cs.countP (·.isClosing)

/-- Components in which every parenthesis has its partner. -/
inductive Balanced : List Component → Prop
  | nil : Balanced []
  | plain {c : Component} {rest : List Component} (noOpening : c.isOpening = false)
    (noClosing : c.isClosing = false) (others : Balanced rest)
    : Balanced (c :: rest)
  | group {opening closing : Component} {inner rest : List Component}
    (opens : opening.isOpening) (inside : Balanced inner) (closes : closing.isClosing)
    (others : Balanced rest)
    : Balanced (opening :: inner ++ closing :: rest)

/-- After components some groups are still open; `waiting` are their openings, the innermost
first.
-/
inductive Open : List Component → List Component → Prop
  | outside {cs : List Component} (balanced : Balanced cs) : Open cs []
  | inside {before after waiting : List Component} {opening : Component}
    (around : Open before waiting) (opens : opening.isOpening) (balanced : Balanced after)
    : Open (before ++ opening :: after) (opening :: waiting)

/-- A closing with which more groups are closed than were opened. -/
def Overcloses (before : List Component) (c : Component) : Prop :=
  c.isClosing ∧ openings (before ++ [c]) < closings (before ++ [c])

/-- An opening among components that no closing is matched with. A closing is matched with
the nearest opening before it that is not matched yet, so that what stands between the two
is balanced.
-/
def UnmatchedOpening (cs : List Component) (opening : Component) : Prop :=
  ∃ before after,
    cs = before ++ opening :: after
    ∧ opening.isOpening
    ∧ ∀ inner closing rest,
        after = inner ++ closing :: rest → Balanced inner → closing.isClosing = false

/-- No beginning of the components closes more groups than it opens. -/
def Covered (cs : List Component) : Prop :=
  ∀ before after, cs = before ++ after → closings before ≤ openings before

theorem Component.isClosing_of_isOpening {c : Component} (opens : c.isOpening)
    : c.isClosing = false := by
  obtain ⟨order, symbol⟩ := c
  cases symbol <;> simp_all [isOpening, isClosing]

theorem Component.isOpening_of_isClosing {c : Component} (closes : c.isClosing)
    : c.isOpening = false := by
  obtain ⟨order, symbol⟩ := c
  cases symbol <;> simp_all [isOpening, isClosing]

@[simp] theorem openings_append (first second : List Component)
    : openings (first ++ second) = openings first + openings second :=
  List.countP_append

@[simp] theorem closings_append (first second : List Component)
    : closings (first ++ second) = closings first + closings second :=
  List.countP_append

@[simp] theorem openings_cons (c : Component) (rest : List Component)
    : openings (c :: rest) = openings rest + if c.isOpening then 1 else 0 :=
  List.countP_cons

@[simp] theorem closings_cons (c : Component) (rest : List Component)
    : closings (c :: rest) = closings rest + if c.isClosing then 1 else 0 :=
  List.countP_cons

@[simp] theorem openings_nil : openings [] = 0 := rfl

@[simp] theorem closings_nil : closings [] = 0 := rfl

-----------------------------------------------------------------------------------------
-- Beginnings that close no more than they open
-----------------------------------------------------------------------------------------

theorem covered_nil : Covered [] := by
  intro before after split
  obtain ⟨rfl, -⟩ := List.append_eq_nil_iff.mp split.symm
  exact Nat.le_refl 0

/-- Covered components stay so behind one that closes nothing. -/
theorem Covered.cons {c : Component} {rest : List Component} (covered : Covered rest)
    (noClosing : c.isClosing = false)
    : Covered (c :: rest) := by
  intro before after split
  rcases List.cons_eq_append_iff.mp split with ⟨rfl, -⟩ | ⟨begun, rfl, same⟩
  · exact Nat.le_refl 0
  · have bound := covered begun after same
    simp only [openings_cons, closings_cons, noClosing, Bool.false_eq_true, if_false]
    omega

/-- Covered components stay so before a component that closes a group if one is open. -/
theorem Covered.concat {cs : List Component} (covered : Covered cs) (c : Component)
    (free : closings (cs ++ [c]) ≤ openings (cs ++ [c]))
    : Covered (cs ++ [c]) := by
  intro before after split
  rcases List.append_eq_append_iff.mp split with ⟨more, rfl, last⟩ | ⟨more, rfl, -⟩
  · rcases List.cons_eq_append_iff.mp last with ⟨rfl, -⟩ | ⟨none, rfl, last⟩
    · simpa using covered cs [] (by simp)
    · obtain ⟨rfl, -⟩ := List.append_eq_nil_iff.mp (List.cons.inj last).2.symm
      exact free
  · exact covered before more rfl

theorem Covered.append {first second : List Component} (left : Covered first)
    (right : Covered second)
    : Covered (first ++ second) := by
  intro before after split
  rcases List.append_eq_append_iff.mp split with ⟨more, rfl, same⟩ | ⟨more, rfl, -⟩
  · have total := left first [] (by simp)
    have bound := right more after same
    simp only [openings_append, closings_append]
    omega
  · exact left before more rfl

/-- What is covered has no closing with which more groups are closed than were opened. -/
theorem Covered.not_overcloses {before after : List Component} {c : Component}
    (covered : Covered (before ++ c :: after))
    : ¬Overcloses before c := by
  rintro ⟨-, exceeds⟩
  have bound := covered (before ++ [c]) after (by simp)
  omega

-----------------------------------------------------------------------------------------
-- Balanced components
-----------------------------------------------------------------------------------------

theorem Balanced.append {first second : List Component} (left : Balanced first)
    (right : Balanced second)
    : Balanced (first ++ second) := by
  induction left with
  | nil => exact right
  | plain noOpening noClosing _ ih => exact .plain noOpening noClosing ih
  | @group opening closing inner rest opens inside closes _ _ ih =>
      simpa using Balanced.group opens inside closes ih

theorem Balanced.level {cs : List Component} (balanced : Balanced cs)
    : openings cs = closings cs := by
  induction balanced with
  | nil => rfl
  | plain noOpening noClosing _ ih => simp [noOpening, noClosing, ih]
  | @group opening closing inner rest opens _ closes _ inside others =>
      have noClosing := opening.isClosing_of_isOpening opens
      have noOpening := closing.isOpening_of_isClosing closes
      simp only [openings_append, openings_cons, closings_append, closings_cons, opens, closes,
        noClosing, noOpening, inside, others, if_true, if_false, Bool.false_eq_true]
      omega

theorem Balanced.covered {cs : List Component} (balanced : Balanced cs) : Covered cs := by
  induction balanced with
  | nil => exact covered_nil
  | plain _ noClosing _ ih => exact ih.cons noClosing
  | @group opening closing inner rest opens balanced closes _ inside others =>
      have begun : Covered (opening :: inner) :=
        inside.cons (opening.isClosing_of_isOpening opens)
      have whole : Covered ((opening :: inner) ++ [closing]) := by
        refine begun.concat closing ?_
        have level := balanced.level
        have noClosing := opening.isClosing_of_isOpening opens
        simp only [openings_append, openings_cons, openings_nil, closings_append,
          closings_cons, closings_nil, opens, closes, noClosing, if_true, if_false,
          Bool.false_eq_true]
        omega
      simpa using whole.append others

/-- In balanced components every opening has a partner, by induction on them. -/
theorem Balanced.partner {cs before after : List Component} {opening : Component}
    (balanced : Balanced cs) (split : cs = before ++ opening :: after)
    (opens : opening.isOpening)
    : ∃ inner closing rest,
        after = inner ++ closing :: rest ∧ Balanced inner ∧ closing.isClosing := by
  induction balanced generalizing before after with
  | nil => simp at split
  | plain noOpening _ _ ih =>
      rcases List.cons_eq_append_iff.mp split with ⟨-, same⟩ | ⟨begun, -, same⟩
      · obtain ⟨rfl, -⟩ := List.cons.inj same
        simp [noOpening] at opens
      · exact ih same
  | @group first closing inner rest _ inside closes _ insideIh othersIh =>
      have noOpening : closing ≠ opening := by
        rintro rfl
        simp [closing.isClosing_of_isOpening opens] at closes
      rw [List.cons_append] at split
      rcases List.cons_eq_append_iff.mp split with ⟨-, same⟩ | ⟨begun, -, same⟩
      · obtain ⟨-, rfl⟩ := List.cons.inj same
        exact ⟨inner, closing, rest, rfl, inside, closes⟩
      · rcases List.append_eq_append_iff.mp same with ⟨more, -, tail⟩ | ⟨more, begins, tail⟩
        · rcases List.cons_eq_append_iff.mp tail with ⟨-, equal⟩ | ⟨later, -, equal⟩
          · exact absurd (List.cons.inj equal).1.symm noOpening
          · exact othersIh equal
        · rcases List.cons_eq_append_iff.mp tail with ⟨-, equal⟩ | ⟨later, rfl, rfl⟩
          · exact absurd (List.cons.inj equal).1 noOpening
          · obtain ⟨nested, partner, others, rfl, balanced, closesIt⟩ := insideIh begins
            exact ⟨nested, partner, others ++ closing :: rest, by simp, balanced, closesIt⟩

-----------------------------------------------------------------------------------------
-- Components of which some groups are still open
-----------------------------------------------------------------------------------------

/-- Balanced components leave the same groups open. -/
theorem Open.append {cs waiting more : List Component} (opened : Open cs waiting)
    (balanced : Balanced more)
    : Open (cs ++ more) waiting := by
  cases opened with
  | outside first => exact .outside (first.append balanced)
  | inside around opens first => simpa using around.inside opens (first.append balanced)

/-- A closing closes the innermost group that is open. -/
theorem Open.close {cs waiting : List Component} {opening closing : Component}
    (opened : Open cs (opening :: waiting)) (closes : closing.isClosing)
    : Open (cs ++ [closing]) waiting := by
  cases opened with
  | inside around opens balanced =>
      simpa using around.append (.group opens balanced closes .nil)

theorem Open.level {cs waiting : List Component} (opened : Open cs waiting)
    : openings cs = closings cs + waiting.length := by
  induction opened with
  | outside balanced => simpa using balanced.level
  | @inside before after waiting opening _ opens balanced ih =>
      have level := balanced.level
      have noClosing := opening.isClosing_of_isOpening opens
      simp only [openings_append, openings_cons, closings_append, closings_cons, opens,
        noClosing, ih, if_true, if_false, Bool.false_eq_true, List.length_cons]
      omega

theorem Open.covered {cs waiting : List Component} (opened : Open cs waiting)
    : Covered cs := by
  induction opened with
  | outside balanced => exact balanced.covered
  | inside _ opens balanced ih =>
      exact ih.append (balanced.covered.cons (Component.isClosing_of_isOpening opens))

/-- The opening of the innermost open group has no partner, and none that has no partner
stands behind it.
-/
theorem Open.unmatched {cs waiting : List Component} {opening : Component}
    (opened : Open cs (opening :: waiting))
    : ∃ before after,
        cs = before ++ opening :: after
        ∧ UnmatchedOpening cs opening
        ∧ ∀ other, UnmatchedOpening cs other → other ∈ before ∨ other = opening := by
  cases opened with
  | @inside before after _ _ _ opens balanced =>
      refine ⟨before, after, rfl, ⟨before, after, rfl, opens, ?_⟩, ?_⟩
      · rintro inner closing rest rfl inside
        have level := inside.level
        have bound := balanced.covered (inner ++ [closing]) rest (by simp)
        cases closes : closing.isClosing with
        | false => rfl
        | true =>
            have noOpening := closing.isOpening_of_isClosing closes
            simp only [openings_append, openings_cons, openings_nil, closings_append,
              closings_cons, closings_nil, closes, noOpening, if_true, if_false,
              Bool.false_eq_true] at bound
            omega
      · rintro other ⟨begun, left, split, otherOpens, alone⟩
        rcases List.append_eq_append_iff.mp split with ⟨more, -, tail⟩ | ⟨more, rfl, tail⟩
        · rcases List.cons_eq_append_iff.mp tail with ⟨-, same⟩ | ⟨later, -, same⟩
          · exact .inr (List.cons.inj same).1
          · obtain ⟨inner, closing, rest, rfl, inside, closes⟩ :=
              balanced.partner same otherOpens
            simp [alone inner closing rest rfl inside] at closes
        · rcases List.cons_eq_append_iff.mp tail with ⟨rfl, same⟩ | ⟨later, rfl, -⟩
          · exact .inr (List.cons.inj same).1.symm
          · exact .inl (by simp)

end RowFormula
