import RowFormula.Formula.Trace
import RowFormula.Proofs.Formula.Relabeling
import RowFormula.Proofs.Formula.RoundTrip
import RowFormula.Proofs.Outcome

/-! A trace replays its evaluation: the formula that is built from its symbols alone, with the
values in the place of the variables that had one, has the same value without any valuation.
-/

namespace RowFormula

/-- A variable that has a value becomes that value. -/
def Operand.fixed (values : Valuation) : Operand → Operand
  | var path =>
    match values path with
    | some v => literal v
    | none => var path
  | literal v => literal v

/-- The symbol that replays a token: of a variable with a value only the value is left. -/
def TraceToken.symbol : TraceToken → Symbol
  | var _ (some v) => .operand (.literal v)
  | var path none => .operand (.var path)
  | literal v => .operand (.literal v)
  | operator op => .operator op
  | opening => .opening
  | closing => .closing

/-- The formula that is built from the symbols of a trace. -/
def ExpressionTrace.rebuilt (trace : ExpressionTrace) (id : String) (resultAs : ResultType)
    : Formula :=
  { Formula.ofSymbols id (trace.tokens.map TraceToken.symbol) with resultAs }

/-- Components without their orders. -/
def Relabeling.forgetful : Relabeling :=
  { order := fun _ => 0 }

/-- Components without their orders, and with the values of variables in their place. -/
def Relabeling.fixing (values : Valuation) : Relabeling :=
  { order := fun _ => 0, operand := Operand.fixed values }

/-- A fixed operand has its value without a valuation. -/
theorem Relabeling.fixing_preserves (values : Valuation)
    : (fixing values).Preserves values fun _ => none := by
  intro o
  cases o with
  | literal v => rfl
  | var path =>
      cases found : values path <;> simp [fixing, Operand.fixed, Operand.value?, found]

theorem TraceToken.symbol_ofSymbol (values : Valuation) (s : Symbol)
    : (ofSymbol values s).symbol = (Relabeling.fixing values).symbol s := by
  cases s with
  | operand o =>
      cases o with
      | literal v => rfl
      | var path =>
          simp only [ofSymbol, Relabeling.symbol, Relabeling.fixing, Operand.fixed]
          cases values path <;> rfl
  | operator op | opening | closing => rfl

namespace Formula

theorem evaluate_of_nil {f : Formula} (absent : f.components = []) (values : Valuation)
    : f.evaluate values = .error .empty := by
  rw [evaluate, absent]
  rfl

/-- The value of a formula whose orders are different is that of its components as they are
read.
-/
theorem evaluate_of_distinct {f : Formula} (present : f.components ≠ [])
    (distinct : ∀ order, ¬SharesOrder f.components order) (values : Valuation)
    : f.evaluate values
      = ((Node.close [] [] (inOrder f.components)).bind (Node.evaluate values)).map
          f.resultAs.cast := by
  rw [evaluate, (Node.ofComponents_distinct present distinct).1]
  cases Node.close [] [] (inOrder f.components) <;> rfl

/-- Symbols that are numbered as they come are read as they come. -/
theorem evaluate_ofSymbols {symbols : List Symbol} (id : String) (present : symbols ≠ [])
    (fits : symbols.length ≤ UInt32.size) (resultAs : ResultType) (values : Valuation)
    : evaluate { ofSymbols id symbols with resultAs } values
      = ((Node.close [] [] (Component.number symbols)).bind (Node.evaluate values)).map
          resultAs.cast := by
  have ascending := Component.number_ascending fits
  have read := evaluate_of_distinct (f := { ofSymbols id symbols with resultAs })
    (Component.number_ne_nil present) (not_sharesOrder_of_ascending ascending) values
  rw [read]
  simp only [ofSymbols, inOrder_of_ascending ascending]

end Formula

theorem Component.map_forgetful_number (symbols : List Symbol)
    : (number symbols).map Relabeling.forgetful.component = symbols.map (Component.mk 0) := by
  have unnumbered : Relabeling.forgetful.component = fun c => ⟨0, c.symbol⟩ :=
    funext fun c => Relabeling.component_of_order _ c
  calc (number symbols).map Relabeling.forgetful.component
      = ((number symbols).map (·.symbol)).map (Component.mk 0) := by
        rw [unnumbered, List.map_map]
        rfl
    _ = symbols.map (Component.mk 0) := by rw [map_symbol_number]

namespace ExpressionTrace

/-- Without their orders, the components that replay a trace are those that were traced, with
the values of variables in their place.
-/
theorem map_forgetful_replayed (cs : List Component) (values : Valuation) (rowIds : List String)
    : (Component.number ((build cs values rowIds).tokens.map TraceToken.symbol)).map
          Relabeling.forgetful.component
      = (inOrder cs).map (Relabeling.fixing values).component := by
  rw [Component.map_forgetful_number, build, List.map_map, List.map_map]
  refine List.map_congr_left fun c _ => ?_
  simp only [Function.comp_apply, TraceToken.symbol_ofSymbol]
  rfl

/-- Components and the symbols that replay their trace are read alike: both readings are, but for
orders and fixed operands, the reading of the same components.
-/
theorem evaluate_number (cs : List Component) (values : Valuation) (rowIds : List String)
    (v : Value)
    : let symbols := (build cs values rowIds).tokens.map TraceToken.symbol
      (Node.close [] [] (Component.number symbols)).bind (Node.evaluate fun _ => none) = .ok v
      ↔ (Node.close [] [] (inOrder cs)).bind (Node.evaluate values) = .ok v := by
  intro symbols
  have forgets : Relabeling.forgetful.Preserves (fun _ => none) fun _ => none := fun _ => rfl
  have forgotten :=
    Relabeling.forgetful.evaluate_close_relabeled forgets (Component.number symbols)
  have fixed := (Relabeling.fixing values).evaluate_close_relabeled
    (Relabeling.fixing_preserves values) (inOrder cs)
  rw [map_forgetful_replayed, fixed] at forgotten
  rw [← Except.mapError_eq_ok_iff (f := Relabeling.forgetful.fault), ← forgotten,
    Except.mapError_eq_ok_iff]

/-- The formula that replays a trace has the values of the formula that was traced. -/
theorem evaluate_rebuilt {f : Formula} (values : Valuation) (rowIds : List String) (id : String)
    (distinct : ∀ order, ¬SharesOrder f.components order)
    (fits : f.components.length ≤ UInt32.size) (v : Value)
    : ((build f.components values rowIds).rebuilt id f.resultAs).evaluate (fun _ => none) = .ok v
      ↔ f.evaluate values = .ok v := by
  have length
      : ((build f.components values rowIds).tokens.map TraceToken.symbol).length
        = f.components.length := by
    simp only [build, List.length_map, (inOrder_perm f.components).length_eq]
  by_cases absent : f.components = []
  · have nothing : (build f.components values rowIds).tokens.map TraceToken.symbol = [] := by
      rw [← List.length_eq_zero_iff, length, absent]
      rfl
    have rebuiltAbsent
        : ((build f.components values rowIds).rebuilt id f.resultAs).components = [] := by
      rw [rebuilt, nothing]
      rfl
    simp [Formula.evaluate_of_nil absent, Formula.evaluate_of_nil rebuiltAbsent]
  · have present : (build f.components values rowIds).tokens.map TraceToken.symbol ≠ [] := by
      rw [← List.length_pos_iff, length]
      exact List.length_pos_iff.mpr absent
    rw [rebuilt, Formula.evaluate_ofSymbols id present (length ▸ fits),
      Formula.evaluate_of_distinct absent distinct, Except.map_eq_ok_iff, Except.map_eq_ok_iff]
    simp only [evaluate_number]

end ExpressionTrace

/-- A trace replays its evaluation. When the components of a formula have a tree, the tokens of
the trace are the symbols of the tree, each variable with the value that the evaluator reads for
it. The formula that is built from the tokens alone, a variable that had a value replaced by the
value, needs no valuation: it has the value that the formula has, and fails when that fails.
-/
theorem trace_replays_evaluation (f : Formula) (values : Valuation) (rowIds : List String)
    (id : String) (distinct : ∀ order, ¬SharesOrder f.components order)
    (fits : f.components.length < 2 ^ 32)
    : let trace := ExpressionTrace.build f.components values rowIds
      let replay := (trace.rebuilt id f.resultAs).evaluate fun _ => none
      (∀ nodes,
        Node.ofComponents f.components = .ok nodes
        → trace.tokens = (Node.flatten nodes).map (TraceToken.ofSymbol values))
      ∧ (∀ path value,
          .var path value ∈ trace.tokens → value = (Operand.var path).value? values)
      ∧ (∀ v, replay = .ok v ↔ f.evaluate values = .ok v)
      ∧ ((∃ e, replay = .error e) ↔ ∃ e, f.evaluate values = .error e) := by
  intro trace replay
  have same (v : Value) : replay = .ok v ↔ f.evaluate values = .ok v :=
    ExpressionTrace.evaluate_rebuilt values rowIds id distinct (Nat.le_of_lt fits) v
  refine ⟨?_, ?_, same, Except.exists_error_iff_of_ok_iff same⟩
  · intro nodes parsed
    rw [Node.flatten_ofComponents parsed, List.map_map]
    rfl
  · intro path value listed
    obtain ⟨c, -, shown⟩ := List.mem_map.mp listed
    obtain ⟨order, symbol⟩ := c
    cases symbol with
    | operand o =>
        cases o with
        | var other =>
            obtain ⟨rfl, rfl⟩ := TraceToken.var.inj shown
            rfl
        | literal v => exact nomatch shown
    | operator op | opening | closing => exact nomatch shown

/-- In `( x y ) & x` with an unset `y` the value of `x` stands twice in the replay and `y` stays a
variable, which fails neither formula.
-/
theorem trace_replays_evaluation_unset
    : let x : Symbol := .operand (.var "x")
      let y : Symbol := .operand (.var "y")
      let f : Formula :=
        { id := "f", resultAs := .string, components := [
            ⟨9, x⟩, ⟨3, .opening⟩, ⟨8, .operator .concat⟩, ⟨5, .operator .concat⟩, ⟨4, x⟩,
            ⟨6, y⟩, ⟨7, .closing⟩] }
      let values : Valuation := fun path => if path = "x" then some (.text "a") else none
      let trace := ExpressionTrace.build f.components values []
      (∀ order, ¬SharesOrder f.components order)
      ∧ f.components.length < 2 ^ 32
      ∧ f.evaluate values = .ok (.text "aa")
      ∧ (trace.rebuilt "g" .string).evaluate (fun _ => none) = .ok (.text "aa") := by
  intro x y f values trace
  have once : (f.components.map (·.order)).Nodup := by decide
  have distinct := nodup_order_iff.mp once
  have fits : f.components.length < 2 ^ 32 := by decide
  have value : f.evaluate values = .ok (.text "aa") := by cbv
  obtain ⟨-, -, same, -⟩ := trace_replays_evaluation f values [] "g" distinct fits
  exact ⟨distinct, fits, value, (same _).mpr value⟩

end RowFormula
