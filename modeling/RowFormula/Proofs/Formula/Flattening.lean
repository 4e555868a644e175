import RowFormula.Formula.Node

/-! The symbols of a tree, read off its nodes. Matching parentheses loses no symbol, repeats
none and moves none, and reads the symbols of a tree as that tree.
-/

namespace RowFormula

namespace Node

mutual

/-- The symbols that a node was matched from. -/
def symbols : Node → List Symbol
  | operand _ o => [.operand o]
  | operator op => [.operator op]
  | group children => .opening :: flatten children ++ [.closing]

def flatten : List Node → List Symbol
  | [] => []
  | node :: rest => node.symbols ++ flatten rest

end

@[simp] theorem flatten_append (left right : List Node)
    : flatten (left ++ right) = flatten left ++ flatten right := by
  induction left with
  | nil => rfl
  | cons node rest ih => simp [flatten, ih]

/-- The symbols read before the innermost open group, with the parentheses that are still
open.
-/
def unclosed : List (UInt32 × List Node) → List Symbol
  | [] => []
  | (_, before) :: outer => unclosed outer ++ flatten before ++ [.opening]

/-- Matching parentheses keeps every symbol in its place, by induction on the components
that are left: what was read stands in the open groups and what is left still follows.
-/
theorem close_flatten {nodes result : List Node} {outer : List (UInt32 × List Node)}
    {components : List Component} (closed : close nodes outer components = .ok result)
    : flatten result
      = unclosed outer ++ flatten nodes ++ components.map (·.symbol) := by
  induction components generalizing nodes outer with
  | nil =>
      cases outer with
      | nil =>
          simp only [close, Except.ok.injEq] at closed
          simp [closed, unclosed]
      | cons entry rest => simp [close] at closed
  | cons c rest ih =>
      obtain ⟨order, symbol⟩ := c
      cases symbol with
      | operand o =>
          simp only [close] at closed
          simp [ih closed, flatten, symbols]
      | operator op =>
          simp only [close] at closed
          simp [ih closed, flatten, symbols]
      | opening =>
          simp only [close] at closed
          simp [ih closed, flatten, unclosed]
      | closing =>
          cases outer with
          | nil => simp [close] at closed
          | cons entry outer =>
              simp only [close] at closed
              simp [ih closed, flatten, symbols, unclosed]

/-- The symbols of a formula's tree are those of its components in reading order. -/
theorem flatten_ofComponents {components : List Component} {nodes : List Node}
    (parsed : ofComponents components = .ok nodes)
    : flatten nodes = (inOrder components).map (·.symbol) := by
  simp only [ofComponents] at parsed
  split at parsed
  · simp at parsed
  · split at parsed
    · simp at parsed
    · simpa [unclosed, flatten] using close_flatten parsed

-----------------------------------------------------------------------------------------
-- The symbols of a tree are read as that tree
-----------------------------------------------------------------------------------------

mutual

/-- A node without the orders of its operands. -/
def withoutOrder : Node → Node
  | operand _ o => operand 0 o
  | operator op => operator op
  | group children => group (withoutOrders children)

def withoutOrders : List Node → List Node
  | [] => []
  | node :: rest => node.withoutOrder :: withoutOrders rest

end

/-- Components with the symbols of a group are an opening and a closing around components with
the symbols of its nodes.
-/
theorem exists_of_symbols_group {children : List Node} {cs : List Component}
    (spelled : cs.map (·.symbol) = (group children).symbols)
    : ∃ opening inner closing,
        cs = opening :: inner ++ [closing]
        ∧ opening.symbol = .opening
        ∧ inner.map (·.symbol) = flatten children
        ∧ closing.symbol = .closing := by
  simp only [symbols, List.cons_append] at spelled
  obtain ⟨first, others, rfl, opens, spelled⟩ := List.map_eq_cons_iff.mp spelled
  obtain ⟨inner, ends, rfl, inside, spelled⟩ := List.map_eq_append_iff.mp spelled
  obtain ⟨last, rfl, closes⟩ := List.map_eq_singleton_iff.mp spelled
  exact ⟨first, inner, last, rfl, opens, inside, closes⟩

mutual

/-- Components with the symbols of a node are read as that node, whatever is open around it
and whatever follows.
-/
theorem close_symbols (node : Node) (cs : List Component)
    (spelled : cs.map (·.symbol) = node.symbols)
    : ∃ read,
        read.withoutOrder = node.withoutOrder
        ∧ ∀ before outer rest,
            close before outer (cs ++ rest) = close (before ++ [read]) outer rest := by
  cases node with
  | operand order o =>
      obtain ⟨c, rfl, symbol⟩ := List.map_eq_singleton_iff.mp spelled
      refine ⟨.operand c.order o, rfl, fun before outer rest => ?_⟩
      simp only [List.singleton_append, close, symbol]
  | operator op =>
      obtain ⟨c, rfl, symbol⟩ := List.map_eq_singleton_iff.mp spelled
      refine ⟨.operator op, rfl, fun before outer rest => ?_⟩
      simp only [List.singleton_append, close, symbol]
  | group children =>
      obtain ⟨first, inner, last, rfl, opens, inside, closes⟩ := exists_of_symbols_group spelled
      obtain ⟨read, same, reads⟩ := close_of_flatten children inner inside
      refine ⟨.group read, by simp only [withoutOrder, same], fun before outer rest => ?_⟩
      simp only [List.cons_append, List.append_assoc, close, opens, reads, List.nil_append,
        closes]

/-- Components with the symbols of a tree are read as that tree, by induction on its nodes.
-/
theorem close_of_flatten (nodes : List Node) (cs : List Component)
    (spelled : cs.map (·.symbol) = flatten nodes)
    : ∃ read,
        withoutOrders read = withoutOrders nodes
        ∧ ∀ before outer rest,
            close before outer (cs ++ rest) = close (before ++ read) outer rest := by
  cases nodes with
  | nil =>
      obtain rfl := List.map_eq_nil_iff.mp spelled
      exact ⟨[], rfl, fun before outer rest => by simp⟩
  | cons node nodes =>
      obtain ⟨front, back, rfl, frontSpelled, backSpelled⟩ := List.map_eq_append_iff.mp spelled
      obtain ⟨first, firstSame, firstRead⟩ := close_symbols node front frontSpelled
      obtain ⟨others, othersSame, othersRead⟩ := close_of_flatten nodes back backSpelled
      refine ⟨first :: others, by simp only [withoutOrders, firstSame, othersSame], ?_⟩
      intro before outer rest
      rw [List.append_assoc, firstRead, othersRead, List.append_assoc, List.singleton_append]

end

end Node

end RowFormula
