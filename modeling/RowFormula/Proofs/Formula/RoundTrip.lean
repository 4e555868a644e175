import RowFormula.Proofs.Formula.Flattening
import RowFormula.Proofs.Formula.Ordering

/-! Reading the symbols of a tree gives that tree, and the symbols of the tree that is read
from components are those of the components in ascending order.
-/

namespace RowFormula

/-- A symbol that is added to numbered ones gets their number as its order. -/
theorem Component.number_concat (symbols : List Symbol) (symbol : Symbol)
    : number (symbols ++ [symbol]) = number symbols ++ [⟨.ofNat symbols.length, symbol⟩] := by
  simp [number, List.zipIdx_append]

theorem Component.map_symbol_number (symbols : List Symbol)
    : (number symbols).map (·.symbol) = symbols := by
  simp only [number, List.map_map]
  exact List.zipIdx_map_fst 0 symbols

theorem Component.number_ne_nil {symbols : List Symbol} (present : symbols ≠ [])
    : number symbols ≠ [] := by
  intro empty
  have spelled := map_symbol_number symbols
  rw [empty] at spelled
  exact present spelled.symm

/-- As long as the numbers fit into an order they ascend. -/
theorem Component.number_ascending {symbols : List Symbol}
    (fits : symbols.length ≤ UInt32.size)
    : (number symbols).Pairwise (·.order < ·.order) := by
  rw [List.pairwise_iff_getElem]
  intro i j iBound jBound less
  simp only [number, List.length_map, List.length_zipIdx] at iBound jBound
  simp only [number, List.getElem_map, List.getElem_zipIdx, Nat.zero_add]
  exact (UInt32.ofNat_lt_iff_lt (by omega) (by omega)).mpr less

namespace Node

theorem flatten_ne_nil {nodes : List Node} (present : nodes ≠ []) : flatten nodes ≠ [] := by
  obtain ⟨node, rest, rfl⟩ := List.exists_cons_of_ne_nil present
  cases node <;> simp [flatten, symbols]

/-- Numbered symbols of a tree are read as that tree. -/
theorem ofComponents_number {nodes : List Node} (present : nodes ≠ [])
    (fits : (flatten nodes).length ≤ UInt32.size)
    : ∃ read,
        ofComponents (Component.number (flatten nodes)) = .ok read
        ∧ withoutOrders read = withoutOrders nodes := by
  have ascending := Component.number_ascending fits
  have spelled := Component.map_symbol_number (flatten nodes)
  have nonempty := Component.number_ne_nil (flatten_ne_nil present)
  have matched := (ofComponents_distinct nonempty (not_sharesOrder_of_ascending ascending)).1
  obtain ⟨read, same, reads⟩ := close_of_flatten nodes _ spelled
  refine ⟨read, ?_, same⟩
  have whole := reads [] [] []
  rw [matched, inOrder_of_ascending ascending]
  simpa [close] using whole

end Node

open Node in
/-- Matching parentheses and flattening are inverse. The tree of components has the symbols
of the components in ascending order; and a tree that is not empty is read back from the
formula of its symbols, up to the orders of its operands. Such a formula numbers its symbols
as they are added, so that there must be fewer than there are orders.
-/
theorem ofComponents_inverse_flatten
    : (∀ components nodes,
        ofComponents components = .ok nodes
        → (inOrder components).Perm components
          ∧ (inOrder components).Pairwise (·.order < ·.order)
          ∧ flatten nodes = (inOrder components).map (·.symbol))
      ∧ (∀ id symbols symbol,
          (Formula.ofSymbols id (symbols ++ [symbol])).components
          = (Formula.ofSymbols id symbols).components
            ++ [⟨.ofNat symbols.length, symbol⟩])
      ∧ ∀ id nodes,
          nodes ≠ []
          → (flatten nodes).length < 2 ^ 32
          → ∃ read,
              ofComponents (Formula.ofSymbols id (flatten nodes)).components = .ok read
              ∧ withoutOrders read = withoutOrders nodes := by
  refine ⟨?_, ?_, ?_⟩
  · intro components nodes parsed
    exact ⟨inOrder_perm components, ascending_of_ofComponents parsed,
      flatten_ofComponents parsed⟩
  · intro id symbols symbol
    exact Component.number_concat symbols symbol
  · intro id nodes present fits
    exact ofComponents_number present (Nat.le_of_lt fits)

open Node in
/-- The components of `( ) + x`, stored out of order, have the symbols of their tree, and the
tree `( ( x ) ( ) ) +` is read back.
-/
theorem ofComponents_inverse_flatten_nested
    : let x : Operand := .var "x"
      let components : List Component :=
        [⟨9, .operand x⟩, ⟨4, .closing⟩, ⟨1, .opening⟩, ⟨6, .operator .add⟩]
      let tree : List Node := [.group [], .operator .add, .operand 9 x]
      let nested : List Node :=
        [.group [.group [.operand 7 x], .group []], .operator .add]
      ofComponents components = .ok tree
      ∧ flatten tree = (inOrder components).map (·.symbol)
      ∧ nested ≠ []
      ∧ (flatten nested).length < 2 ^ 32
      ∧ ∃ read,
          ofComponents (Formula.ofSymbols "f" (flatten nested)).components = .ok read
          ∧ withoutOrders read = withoutOrders nested := by
  intro x components tree nested
  have parsed : ofComponents components = .ok tree := by cbv
  have present : nested ≠ [] := List.cons_ne_nil _ _
  have fits : (flatten nested).length < 2 ^ 32 := by decide
  obtain ⟨flattens, -, readsBack⟩ := ofComponents_inverse_flatten
  exact ⟨parsed, (flattens components tree parsed).2.2, present, fits,
    readsBack "f" nested present fits⟩

end RowFormula
