import RowFormula.Proofs.Formula.Balance
import RowFormula.Proofs.Formula.Ordering

/-! Which components have a tree, and what is wrong with the others. Matching reads them in
ascending order; at each moment the groups that are still open are those on its stack.
-/

namespace RowFormula

/-- Some closing among components closes more groups than were opened. -/
def Overclosed (cs : List Component) : Prop :=
  ∃ before c after, cs = before ++ c :: after ∧ Overcloses before c

/-- The first closing with which more groups are closed than were opened. -/
def FirstOverclosing (cs : List Component) (c : Component) : Prop :=
  ∃ before after, cs = before ++ c :: after ∧ Overcloses before c ∧ ¬Overclosed before

/-- The opening with the largest order among those that no closing is matched with. -/
def LastUnmatched (cs : List Component) (opening : Component) : Prop :=
  UnmatchedOpening cs opening
  ∧ ∀ other, UnmatchedOpening cs other → other.order ≤ opening.order

theorem FirstOverclosing.overclosed {cs : List Component} {c : Component}
    (first : FirstOverclosing cs c)
    : Overclosed cs := by
  obtain ⟨before, after, split, exceeds, -⟩ := first
  exact ⟨before, c, after, split, exceeds⟩

theorem Covered.not_overclosed {cs : List Component} (covered : Covered cs)
    : ¬Overclosed cs := by
  rintro ⟨before, c, after, rfl, exceeds⟩
  exact covered.not_overcloses exceeds

/-- A closing behind balanced components is the first that closes too much. -/
theorem Balanced.firstOverclosing {before : List Component} {c : Component}
    (balanced : Balanced before) (closes : c.isClosing) (after : List Component)
    : FirstOverclosing (before ++ c :: after) c := by
  refine ⟨before, after, rfl, ⟨closes, ?_⟩, balanced.covered.not_overclosed⟩
  simp [balanced.level, closes, c.isOpening_of_isClosing closes]

/-- Among components in ascending order the innermost open group has the last opening
without a partner.
-/
theorem Open.lastUnmatched {cs waiting : List Component} {opening : Component}
    (opened : Open cs (opening :: waiting)) (ascending : cs.Pairwise (·.order < ·.order))
    : LastUnmatched cs opening := by
  obtain ⟨before, after, rfl, unmatched, others⟩ := opened.unmatched
  refine ⟨unmatched, fun other alone => ?_⟩
  rcases others other alone with earlier | rfl
  · have below := (List.pairwise_append.mp ascending).2.2 other earlier opening (by simp)
    exact UInt32.le_of_lt below
  · exact UInt32.le_refl _

namespace Node

-----------------------------------------------------------------------------------------
-- What matching finds
-----------------------------------------------------------------------------------------

/-- What matching components comes to. -/
inductive Verdict (cs : List Component) : Except SyntaxError (List Node) → Prop
  | matched (nodes : List Node) (balanced : Balanced cs) : Verdict cs (.ok nodes)
  | overclosed {before after : List Component} {c : Component} (balanced : Balanced before)
    (closes : c.isClosing) (split : cs = before ++ c :: after)
    : Verdict cs (.error (.unmatchedClose c.order))
  | unclosed {opening : Component} {waiting : List Component}
    (opened : Open cs (opening :: waiting))
    : Verdict cs (.error (.unterminatedGroup opening.order))

/-- Matching goes on from components that left some groups open, by induction on those that
are left: the groups on the stack are the ones that are open.
-/
theorem close_verdict {read waiting cs : List Component} {nodes : List Node}
    {outer : List (UInt32 × List Node)} (opened : Open read waiting)
    (stacked : outer.map (·.1) = waiting.map (·.order))
    : Verdict (read ++ cs) (close nodes outer cs) := by
  induction cs generalizing read waiting nodes outer with
  | nil =>
      rw [List.append_nil]
      cases waiting with
      | nil =>
          obtain rfl := List.map_eq_nil_iff.mp stacked
          cases opened with
          | outside balanced => exact .matched nodes balanced
      | cons opening waiting =>
          obtain ⟨⟨order, around⟩, others, rfl, same, -⟩ := List.map_eq_cons_iff.mp stacked
          obtain rfl : order = opening.order := same
          exact .unclosed opened
  | cons c rest ih =>
      have split : read ++ c :: rest = (read ++ [c]) ++ rest := by simp
      have plain (noOpening : c.isOpening = false) (noClosing : c.isClosing = false)
          : Open (read ++ [c]) waiting :=
        opened.append (.plain noOpening noClosing .nil)
      rw [split]
      cases symbol : c.symbol with
      | operand o =>
          simp only [close, symbol]
          have noOpening : c.isOpening = false := by simp [Component.isOpening, symbol]
          have noClosing : c.isClosing = false := by simp [Component.isClosing, symbol]
          exact ih (plain noOpening noClosing) stacked
      | operator op =>
          simp only [close, symbol]
          have noOpening : c.isOpening = false := by simp [Component.isOpening, symbol]
          have noClosing : c.isClosing = false := by simp [Component.isClosing, symbol]
          exact ih (plain noOpening noClosing) stacked
      | opening =>
          have opens : c.isOpening := by simp [Component.isOpening, symbol]
          simp only [close, symbol]
          exact ih (opened.inside opens .nil) (by simp [stacked])
      | closing =>
          have closes : c.isClosing := by simp [Component.isClosing, symbol]
          simp only [close, symbol]
          cases waiting with
          | nil =>
              obtain rfl := List.map_eq_nil_iff.mp stacked
              cases opened with
              | outside balanced => exact .overclosed balanced closes split.symm
          | cons opening waiting =>
              obtain ⟨around, others, rfl, -, below⟩ := List.map_eq_cons_iff.mp stacked
              exact ih (opened.close closes) below

-----------------------------------------------------------------------------------------
-- Matching on a stack that holds all groups
-----------------------------------------------------------------------------------------

/-- Why matching on a stack stops: the components are at fault, or the stack has no group
left to read into.
-/
inductive StackFailure where
  | fault (cause : SyntaxError)
  | noGroup

/-- Adds a node to the innermost group of a stack. -/
def push (node : Node) : List (UInt32 × List Node)
    → Except StackFailure (List (UInt32 × List Node))
  | [] => .error .noGroup
  | (order, nodes) :: outer => .ok ((order, nodes ++ [node]) :: outer)

/-- Reads a component on a stack of groups, innermost first. Each has the order of its
opening; the last is the tree itself, which has none.
-/
def pushComponent (stack : List (UInt32 × List Node)) (c : Component)
    : Except StackFailure (List (UInt32 × List Node)) :=
  match c.symbol with
  | .operand o => push (.operand c.order o) stack
  | .operator op => push (.operator op) stack
  | .opening => .ok ((c.order, []) :: stack)
  | .closing =>
    match stack with
    | [] => .error .noGroup
    | [_] => .error (.fault (.unmatchedClose c.order))
    | (_, inner) :: outer => push (.group inner) outer

/-- Matches components on a stack, at whose end only the tree may be left. -/
def matchOn (stack : List (UInt32 × List Node))
    : List Component → Except StackFailure (List Node)
  | [] =>
    match stack with
    | [] => .error .noGroup
    | [(_, tree)] => .ok tree
    | (order, _) :: _ => .error (.fault (.unterminatedGroup order))
  | c :: rest => (pushComponent stack c).bind fun stack => matchOn stack rest

/-- The stack that holds the innermost group and those around it. -/
def stackOf (nodes : List Node) : List (UInt32 × List Node) → List (UInt32 × List Node)
  | [] => [(0, nodes)]
  | (order, before) :: outer => (order, nodes) :: stackOf before outer

/-- Matching on a stack that holds the tree never lacks a group, and comes to the same, by
induction on the components.
-/
theorem matchOn_stackOf (nodes : List Node) (outer : List (UInt32 × List Node))
    (cs : List Component)
    : matchOn (stackOf nodes outer) cs = (close nodes outer cs).mapError .fault := by
  induction cs generalizing nodes outer with
  | nil =>
      cases outer with
      | nil => rfl
      | cons _ outer => cases outer <;> rfl
  | cons c rest ih =>
      have pushed (node : Node)
          : push node (stackOf nodes outer) = .ok (stackOf (nodes ++ [node]) outer) := by
        cases outer <;> rfl
      cases symbol : c.symbol with
      | operand o => simp only [matchOn, pushComponent, close, symbol, pushed, Except.bind, ih]
      | operator op => simp only [matchOn, pushComponent, close, symbol, pushed, Except.bind, ih]
      | opening =>
          simp only [matchOn, pushComponent, close, symbol, Except.bind]
          exact ih [] ((c.order, nodes) :: outer)
      | closing =>
          cases outer with
          | nil => simp only [matchOn, pushComponent, close, symbol, stackOf]; rfl
          | cons around outer =>
              obtain ⟨_, before⟩ := around
              have next := ih (before ++ [.group nodes]) outer
              cases outer <;> simp only [matchOn, pushComponent, close, symbol, stackOf]
              · exact next
              · exact next

-----------------------------------------------------------------------------------------
-- What is wrong with components
-----------------------------------------------------------------------------------------

/-- What becomes of components: there are none, some share an order, or they are matched in
ascending order.
-/
inductive Fate (components : List Component) : Except SyntaxError (List Node) → Prop
  | empty (absent : components = []) : Fate components (.error .empty)
  | shared {order : UInt32} (shared : SharesOrder components order)
    (least : ∀ other, SharesOrder components other → order ≤ other)
    : Fate components (.error (.duplicateOrder order))
  | read {result : Except SyntaxError (List Node)} (present : components ≠ [])
    (distinct : ∀ order, ¬SharesOrder components order)
    (ascending : (inOrder components).Pairwise (·.order < ·.order))
    (verdict : Verdict (inOrder components) result)
    : Fate components result

theorem ofComponents_fate (components : List Component)
    : Fate components (ofComponents components) := by
  by_cases absent : components = []
  · subst absent
    exact .empty rfl
  · by_cases shared : ∃ order, SharesOrder components order
    · obtain ⟨order, shared⟩ := shared
      obtain ⟨least, reported, sharedToo, below⟩ := ofComponents_shared shared
      rw [reported]
      exact .shared sharedToo below
    · have distinct : ∀ order, ¬SharesOrder components order := by
        intro order sharesIt
        exact shared ⟨order, sharesIt⟩
      obtain ⟨matched, ascending⟩ := ofComponents_distinct absent distinct
      rw [matched]
      exact .read absent distinct ascending (close_verdict (.outside .nil) rfl)

end Node

/-- Components have a tree exactly when there are some, no two share an order, and they are
balanced when read in ascending order. Otherwise the first of these faults is reported that
there is: there are no components; the least order that is shared; the first closing that
closes more groups than were opened; the last opening without a partner. Matching them on a
stack never lacks a group.
-/
theorem ofComponents_verdict (components : List Component)
    : let sorted := inOrder components
      let result := Node.ofComponents components
      let distinct := ∀ order, ¬SharesOrder components order
      sorted.Perm components
      ∧ sorted.Pairwise (·.order ≤ ·.order)
      ∧ (components ≠ []
          → distinct
          → Node.matchOn [(0, [])] sorted = result.mapError .fault)
      ∧ (result = .error .empty ↔ components = [])
      ∧ ((∃ order, result = .error (.duplicateOrder order))
          ↔ ∃ order, SharesOrder components order)
      ∧ (∀ order,
          result = .error (.duplicateOrder order)
          → SharesOrder components order
            ∧ ∀ other, SharesOrder components other → order ≤ other)
      ∧ ((∃ order, result = .error (.unmatchedClose order))
          ↔ distinct ∧ Overclosed sorted)
      ∧ (∀ order,
          result = .error (.unmatchedClose order)
          → ∃ c, FirstOverclosing sorted c ∧ c.order = order)
      ∧ ((∃ order, result = .error (.unterminatedGroup order))
          ↔ distinct ∧ ¬Overclosed sorted ∧ closings sorted < openings sorted)
      ∧ (∀ order,
          result = .error (.unterminatedGroup order)
          → ∃ opening, LastUnmatched sorted opening ∧ opening.order = order)
      ∧ ((∃ nodes, result = .ok nodes)
          ↔ components ≠ [] ∧ distinct ∧ ¬Overclosed sorted
            ∧ ¬closings sorted < openings sorted)
      ∧ ((∃ nodes, result = .ok nodes)
          ↔ components ≠ [] ∧ distinct ∧ Balanced sorted) := by
  intro sorted result distinct
  have fate : Node.Fate components result := Node.ofComponents_fate components
  have stack (present : components ≠ []) (apart : distinct)
      : Node.matchOn [(0, [])] sorted = result.mapError .fault := by
    rw [show result = Node.close [] [] sorted
      from (Node.ofComponents_distinct present apart).1]
    exact Node.matchOn_stackOf [] [] sorted
  refine ⟨inOrder_perm components, inOrder_ascending components, stack, ?_⟩
  clear stack
  generalize result = result at fate
  cases fate with
  | empty absent =>
      subst absent
      have read : sorted = [] := List.mergeSort_nil
      simp [SharesOrder, read, Balanced.nil.covered.not_overclosed]
  | @shared order shared least =>
      have present : components ≠ [] := by
        rintro rfl
        simp [SharesOrder] at shared
      have notDistinct : ¬distinct := fun apart => apart order shared
      have someShared : ∃ order, SharesOrder components order := ⟨order, shared⟩
      simpa [present, notDistinct, someShared, shared] using least
  | read present apart ascending verdict =>
      have notShared : ¬∃ order, SharesOrder components order := by
        rintro ⟨order, shared⟩
        exact apart order shared
      have distinct : distinct := apart
      cases verdict with
      | matched nodes balanced =>
          have whole : Balanced sorted := balanced
          have notOverclosed : ¬Overclosed sorted := balanced.covered.not_overclosed
          have level : openings sorted = closings sorted := balanced.level
          simp [present, notShared, distinct, whole, notOverclosed, level]
      | @overclosed before after c balanced closes split =>
          have first : FirstOverclosing sorted c := by
            have firstOf := balanced.firstOverclosing closes after
            rwa [← split] at firstOf
          have notBalanced : ¬Balanced sorted := by
            intro whole
            exact whole.covered.not_overclosed first.overclosed
          have culprit : ∃ found, FirstOverclosing sorted found ∧ found.order = c.order :=
            ⟨c, first, rfl⟩
          simpa [present, notShared, distinct, first.overclosed, notBalanced] using culprit
      | @unclosed opening waiting opened =>
          have last : LastUnmatched sorted opening := opened.lastUnmatched ascending
          have notOverclosed : ¬Overclosed sorted := opened.covered.not_overclosed
          have more : closings sorted < openings sorted := by
            have level : openings sorted = closings sorted + (waiting.length + 1) :=
              opened.level
            omega
          have notBalanced : ¬Balanced sorted := by
            intro whole
            have level := whole.level
            omega
          have culprit
              : ∃ found, LastUnmatched sorted found ∧ found.order = opening.order :=
            ⟨opening, last, rfl⟩
          simpa [present, notShared, distinct, notOverclosed, more, notBalanced] using culprit

/-- Of two shared orders the least is reported, of two closings without an opening the first
in ascending order, and in `( ( )` the first opening, since the closing takes the second.
-/
theorem ofComponents_verdict_culprits
    : let shared : List Component :=
        [⟨7, .closing⟩, ⟨4, .opening⟩, ⟨7, .opening⟩, ⟨4, .closing⟩]
      let overclosed : List Component := [⟨3, .opening⟩, ⟨2, .closing⟩, ⟨1, .closing⟩]
      let unclosed : List Component := [⟨8, .closing⟩, ⟨5, .opening⟩, ⟨6, .opening⟩]
      (Node.ofComponents shared = .error (.duplicateOrder 4)
        ∧ ∀ other, SharesOrder shared other → 4 ≤ other)
      ∧ (Node.ofComponents overclosed = .error (.unmatchedClose 1)
        ∧ ∃ c, FirstOverclosing (inOrder overclosed) c ∧ c.order = 1)
      ∧ (Node.ofComponents unclosed = .error (.unterminatedGroup 5)
        ∧ ∃ opening, LastUnmatched (inOrder unclosed) opening ∧ opening.order = 5)
      ∧ unclosed ≠ []
      ∧ (∀ order, ¬SharesOrder unclosed order)
      ∧ Node.matchOn [(0, [])] (inOrder unclosed)
        = (Node.ofComponents unclosed).mapError .fault := by
  intro shared overclosed unclosed
  have sharedResult : Node.ofComponents shared = .error (.duplicateOrder 4) := by cbv
  have overclosedResult : Node.ofComponents overclosed = .error (.unmatchedClose 1) := by cbv
  have unclosedResult : Node.ofComponents unclosed = .error (.unterminatedGroup 5) := by cbv
  have present : unclosed ≠ [] := List.cons_ne_nil _ _
  have distinct (order : UInt32) : ¬SharesOrder unclosed order := by
    have once := List.nodup_iff_count.mp (by decide : ([8, 5, 6] : List UInt32).Nodup) order
    exact Nat.not_le.mpr (Nat.lt_succ_of_le once)
  obtain ⟨-, -, -, -, -, least, -⟩ := ofComponents_verdict shared
  obtain ⟨-, -, -, -, -, -, -, first, -⟩ := ofComponents_verdict overclosed
  obtain ⟨-, -, stack, -, -, -, -, -, -, last, -⟩ := ofComponents_verdict unclosed
  exact ⟨⟨sharedResult, (least 4 sharedResult).2⟩,
    ⟨overclosedResult, first 1 overclosedResult⟩, ⟨unclosedResult, last 5 unclosedResult⟩,
    present, distinct, stack present distinct⟩

end RowFormula
