import RowFormula.Formula.Json
import RowFormula.Proofs.Value.Resaving

/-! Formulas are read again from the trees that they are written as. -/

namespace RowFormula

open Json

theorem CalculationTrigger.resaves : Resaves ofJson? (fun trigger => .text trigger.name) :=
  resaves_choice fun trigger => by cases trigger <;> rfl

theorem ResultType.resaves : Resaves ofJson? (fun type => .text type.name) :=
  resaves_choice fun type => by cases type <;> rfl

namespace Symbol

/-- A symbol that was read is read again under the type that it is written with, by cases of the
type under which it was read.
-/
theorem ofJson?_toJson {type : String} {json : Json} {symbol : Symbol}
    (given : ofJson? type json = some symbol)
    : ofJson? symbol.toJson.1 symbol.toJson.2 = some symbol := by
  unfold ofJson? at given
  split at given
  case h_1 =>
    obtain ⟨path, -, rfl⟩ := Option.map_eq_some_iff.mp given
    rfl
  case h_2 =>
    obtain ⟨v, found, rfl⟩ := Option.map_eq_some_iff.mp given
    simp only [toJson, ofJson?, Value.resaves json v found, Option.map_some]
  case h_3 =>
    obtain ⟨op, -, rfl⟩ := Option.map_eq_some_iff.mp given
    cases op <;> rfl
  case h_4 =>
    obtain ⟨name, found⟩ := exists_name_of_choice? given
    unfold parenthesis? at found
    split at found <;> cases found <;> rfl
  case h_5 => cases given

theorem isReadable_toJson (symbol : Symbol) : symbol.toJson.2.isReadable = true := by
  cases symbol with
  | operand operand =>
      cases operand with
      | var path => rfl
      | literal v => exact v.isReadable_toJson
  | operator _ | opening | closing => rfl

end Symbol

/-- The place of a component is a number that fits its bound. -/
theorem toNat?_toNat (order : UInt32)
    : toNat? UInt32.size (.integer order.toNat) = some order.toNat :=
  if_pos order.toNat_lt_size

theorem Component.isReadable_toJson (c : Component) : c.toJson.isReadable = true := by
  simp only [toJson, isReadable, allFieldsReadable, c.symbol.isReadable_toJson, Bool.and_self]

/-- A component is read again once its symbol is. -/
theorem Component.ofJson?_toJson (c : Component)
    (kept : Symbol.ofJson? c.symbol.toJson.1 c.symbol.toJson.2 = some c.symbol)
    : ofJson? c.toJson = some c := by
  calc ofJson? c.toJson
    _ = (do
          guard (c.toJson.isReadable = true)
          let order ← toNat? UInt32.size (.integer c.order.toNat)
          let symbol ← Symbol.ofJson? c.symbol.toJson.1 c.symbol.toJson.2
          return ⟨.ofNat order, symbol⟩) := rfl
    _ = some c := by
          rw [c.isReadable_toJson, toNat?_toNat, kept]
          exact congrArg (fun order => some (Component.mk order c.symbol)) UInt32.ofNat_toNat

theorem Component.resaves : Resaves ofJson? toJson := by
  intro json c given
  obtain ⟨-, -, fields⟩ := Option.bind_eq_some_iff.mp given
  simp only [Option.bind_eq_bind, Option.bind_eq_some_iff] at fields
  obtain ⟨⟨type, body⟩, -, r, -, order, -, symbol, symbolRead, same⟩ := fields
  obtain ⟨value, -, found⟩ := Option.bind_eq_some_iff.mp symbolRead
  obtain rfl := Option.some.inj same
  exact Component.ofJson?_toJson ⟨.ofNat order, symbol⟩ (Symbol.ofJson?_toJson found)

theorem Formula.resaves : Resaves ofJson? toJson := by
  intro json f given
  simp only [ofJson?, Option.bind_eq_bind, Option.bind_eq_some_iff] at given
  obtain ⟨r, -, id, -, resultAs, resultRead, trigger, triggerRead, withLogs, -, components,
    componentsRead, same⟩ := given
  obtain rfl := Option.some.inj same
  calc ofJson? (toJson ⟨id, resultAs, trigger, withLogs, components⟩)
    _ = (do
          let resultAs ← ResultType.ofJson? (.text resultAs.name)
          let trigger ← CalculationTrigger.ofJson? (.text trigger.name)
          let components ← items? Component.ofJson? (.array (components.map Component.toJson))
          return ⟨id, resultAs, trigger, withLogs, components⟩) := rfl
    _ = some ⟨id, resultAs, trigger, withLogs, components⟩ := by
          rw [ResultType.resaves.defaulted rfl resultRead,
            CalculationTrigger.resaves.defaulted rfl triggerRead,
            Component.resaves.items.required componentsRead]
          rfl

end RowFormula
