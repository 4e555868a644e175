import RowFormula.Formula.Trace
import RowFormula.Proofs.Decimal.Digits

/-! Texts and numbers in a trace. Texts are quoted, in lists of any depth as well, so that they are
told apart from numbers; but the ends of a range are shown as they are.
-/

namespace RowFormula

-----------------------------------------------------------------------------------------
-- The texts of numbers
-----------------------------------------------------------------------------------------

/-- Something is written, and no quotation mark. -/
structure Unquoted (text : List Char) : Prop where
  written : text ≠ []
  unmarked : '"' ∉ text

namespace Unquoted

open Decimal

theorem digits {text : List Char} (written : text ≠ []) (only : ∀ c ∈ text, c.isDigit = true)
    : Unquoted text :=
  ⟨written, fun member => absurd (only '"' member) (by decide)⟩

theorem append {text rest : List Char} (first : Unquoted text) (unmarked : '"' ∉ rest)
    : Unquoted (text ++ rest) where
  written := List.append_ne_nil_of_left_ne_nil first.written rest
  unmarked member := (List.mem_append.mp member).elim first.unmarked unmarked

theorem prepend {text rest : List Char} (unmarked : '"' ∉ text) (last : Unquoted rest)
    : Unquoted (text ++ rest) where
  written := List.append_ne_nil_of_right_ne_nil text last.written
  unmarked member := (List.mem_append.mp member).elim unmarked last.unmarked

theorem digitText (n : Nat) : Unquoted (digitText n) :=
  digits Nat.toDigits_ne_nil fun _ => Nat.isDigit_of_mem_toDigits (by decide) (by decide)

theorem positional (s : Shortest) : Unquoted s.positional := by
  rw [Shortest.positional]
  split
  · next zeros _ =>
      refine (digitText s.digits).append fun member => ?_
      exact absurd (List.eq_of_mem_replicate member) (by decide)
  · next k _ =>
      dsimp only
      cases cut : dropTrailingZeros (lastDigits (k + 1) s.digits) with
      | nil => exact digitText _
      | cons first rest =>
          refine (digitText _).append fun member => ?_
          rcases List.mem_cons.mp member with point | later
          · exact absurd point (by decide)
          · rw [← cut, dropTrailingZeros, List.mem_reverse] at later
            have digit := List.mem_reverse.mp ((List.dropWhile_sublist _).subset later)
            exact absurd (isDigit_of_mem_lastDigits digit) (by decide)

theorem integer (i : Int) : Unquoted (toString i).toList := by
  cases i with
  | ofNat n =>
      have text : (toString (Int.ofNat n)).toList = Decimal.digitText n := Nat.toList_repr
      rw [text]
      exact digitText n
  | negSucc n =>
      have text : (toString (Int.negSucc n)).toList = ['-'] ++ Decimal.digitText (n + 1) := by
        have sign : toString (Int.negSucc n) = "-" ++ (n + 1).repr := rfl
        rw [sign, String.toList_append, Nat.toList_repr]
        rfl
      rw [text]
      exact prepend (by decide) (digitText _)

theorem binary (b : Binary) : Unquoted b.text := by
  rw [Binary.text]
  split
  · exact integer _
  · refine prepend ?_ (positional _)
    split <;> decide

theorem number (x : Float) : Unquoted (numberText x).toList := by
  rw [numberText]
  split
  · next b _ =>
      rw [String.toList_ofList]
      exact binary b
  · split
    · exact ⟨by decide, by decide⟩
    · split <;> exact ⟨by decide, by decide⟩

end Unquoted

-----------------------------------------------------------------------------------------
-- Texts within texts
-----------------------------------------------------------------------------------------

/-- One text stands in another, always between the same texts. -/
def StandsIn {α : Type} (inner outer : α → String) : Prop :=
  ∃ before after, ∀ a, outer a = before ++ inner a ++ after

namespace StandsIn

variable {α β : Type} {inner middle outer : α → String}

theorem between (before after : String) (inner : α → String)
    : StandsIn inner fun a => before ++ inner a ++ after :=
  ⟨before, after, fun _ => rfl⟩

theorem refl (inner : α → String) : StandsIn inner inner :=
  ⟨"", "", fun a => by rw [String.empty_append, String.append_empty]⟩

theorem trans (first : StandsIn inner middle) (second : StandsIn middle outer)
    : StandsIn inner outer := by
  obtain ⟨before, after, within⟩ := first
  obtain ⟨left, right, around⟩ := second
  refine ⟨left ++ before, after ++ right, fun a => ?_⟩
  simp only [around, within, String.append_assoc]

theorem comp (frame : StandsIn inner outer) (f : β → α)
    : StandsIn (fun b => inner (f b)) fun b => outer (f b) := by
  obtain ⟨before, after, within⟩ := frame
  exact ⟨before, after, fun b => within (f b)⟩

/-- The outer texts are told apart where the inner ones are. -/
theorem eq_iff (frame : StandsIn inner outer) {a b : α}
    : outer a = outer b ↔ inner a = inner b := by
  obtain ⟨before, after, within⟩ := frame
  rw [within, within, String.append_left_inj, String.append_right_inj]

/-- A text stands in a list of texts with separators, by induction on the texts before it. -/
theorem intercalate (separator : String) (before after : List String)
    : StandsIn id fun text => separator.intercalate (before ++ text :: after) := by
  induction before with
  | nil =>
      cases after with
      | nil => exact ⟨"", "", fun text => by simp⟩
      | cons next rest =>
          exact ⟨"", separator ++ separator.intercalate (next :: rest), fun text => by
            simp [String.append_assoc]⟩
  | cons first rest ih =>
      refine ih.trans ⟨first ++ separator, "", fun text => ?_⟩
      have more : rest ++ text :: after ≠ [] := List.append_ne_nil_of_right_ne_nil _ (by simp)
      rw [String.append_empty]
      exact String.intercalate_cons_of_ne_nil more

end StandsIn

-----------------------------------------------------------------------------------------
-- Leaves within values
-----------------------------------------------------------------------------------------

namespace Value

theorem textOfItems_eq
    : (items : List Value) → textOfItems items = String.intercalate "," (items.map toText)
  | [] => rfl
  | [item] => by rw [textOfItems, List.map_singleton, String.intercalate_singleton]
  | item :: next :: rest => by
      have more : (next :: rest).map toText ≠ [] := List.cons_ne_nil _ _
      rw [textOfItems, textOfItems_eq (next :: rest)]
      · exact (String.intercalate_cons_of_ne_nil more).symm
      · exact List.cons_ne_nil _ _

theorem traceTexts_eq (items : List Value) : traceTexts items = items.map traceText := by
  induction items with
  | nil => rfl
  | cons item rest ih => rw [traceTexts, ih, List.map_cons]

/-- No number is shown as a text, whatever stands before the two. -/
theorem append_traceText_text_ne (before other : String) (s : String) (x : Float)
    : before ++ (text s).traceText ≠ other ++ (number x).traceText := by
  intro same
  have number : Unquoted (number x).traceText.toList := .number x
  have quoted : (before ++ (text s).traceText).toList = (before ++ "\"" ++ s).toList ++ ['"'] := by
    simp [traceText]
  -- The last character of one is a quotation mark, and of the other one of the number's text.
  have last : '"' ∈ (other.toList ++ (Value.number x).traceText.toList).getLast? := by
    rw [← String.toList_append, ← same, quoted, List.getLast?_concat]
    rfl
  rw [List.getLast?_append_of_ne_nil _ number.written] at last
  exact number.unmarked (List.mem_of_getLast? last)

end Value

/-- What surrounds a leaf of a value: the items beside it in a list, or the other end of a range,
at every depth.
-/
inductive LeafContext where
  | here
  | item (before : List Value) (inner : LeafContext) (after : List Value)
  | lower (inner : LeafContext) (other : Value)
  | upper (other : Value) (inner : LeafContext)

namespace LeafContext

/-- The value that has a leaf in this place. -/
def fill : LeafContext → Value → Value
  | here, leaf => leaf
  | item before inner after, leaf => .list (before ++ inner.fill leaf :: after)
  | lower inner other, leaf => .range (inner.fill leaf) other
  | upper other inner, leaf => .range other (inner.fill leaf)

/-- Whether the leaf belongs to an end of a range. -/
def inRange : LeafContext → Bool
  | here => false
  | item _ inner _ => inner.inRange
  | lower .. => true
  | upper .. => true

/-- The text of a leaf in this place: in a range it is not quoted. -/
def leafText (around : LeafContext) (leaf : Value) : String :=
  if around.inRange then leaf.toText else leaf.traceText

/-- The text of a leaf stands in that of the whole value, by induction on what surrounds it. -/
theorem standsIn_toText (around : LeafContext)
    : StandsIn Value.toText fun leaf => (around.fill leaf).toText := by
  induction around with
  | here => exact .refl _
  | item before inner after ih =>
      have items (leaf : Value) : ((item before inner after).fill leaf).toText
          = String.intercalate ","
              (before.map Value.toText ++ (inner.fill leaf).toText :: after.map Value.toText) := by
        rw [fill, Value.toText, Value.textOfItems_eq, List.map_append, List.map_cons]
      simp only [items]
      exact ih.trans ((StandsIn.intercalate "," _ _).comp fun leaf => (inner.fill leaf).toText)
  | lower inner other ih =>
      refine ih.trans ⟨"", " - " ++ other.toText, fun leaf => ?_⟩
      rw [String.empty_append, ← String.append_assoc]
      rfl
  | upper other inner ih =>
      refine ih.trans ⟨other.toText ++ " - ", "", fun leaf => ?_⟩
      rw [String.append_empty]
      rfl

theorem standsIn_traceText (around : LeafContext)
    : StandsIn around.leafText fun leaf => (around.fill leaf).traceText := by
  induction around with
  | here => exact .refl _
  | item before inner after ih =>
      have items (leaf : Value) : ((item before inner after).fill leaf).traceText
          = "[" ++ String.intercalate ", "
              (before.map Value.traceText ++ (inner.fill leaf).traceText
                :: after.map Value.traceText) ++ "]" := by
        rw [fill, Value.traceText, Value.traceTexts_eq, List.map_append, List.map_cons]
      simp only [items]
      have listed := (StandsIn.intercalate ", " (before.map Value.traceText)
        (after.map Value.traceText)).comp fun leaf => (inner.fill leaf).traceText
      exact (ih.trans listed).trans (.between "[" "]" _)
  | lower inner other _ => exact standsIn_toText (lower inner other)
  | upper other inner _ => exact standsIn_toText (upper other inner)

/-- A text and a number in the same place are shown alike only in a range. -/
theorem leafText_eq_iff (around : LeafContext) (s : String) (x : Float)
    : around.leafText (.text s) = around.leafText (.number x)
      ↔ around.inRange ∧ s = Decimal.numberText x := by
  cases inside : around.inRange with
  | true => simp [leafText, inside, Value.toText]
  | false =>
      have differs := Value.append_traceText_text_ne "" "" s x
      simpa [leafText, inside] using differs

end LeafContext

-----------------------------------------------------------------------------------------
-- Values within traces
-----------------------------------------------------------------------------------------

/-- The text of a symbol stands in that of the trace. -/
theorem ExpressionTrace.standsIn_text (front back : List TraceToken) (rowIds : List String)
    (unset : String)
    : StandsIn (TraceToken.text unset) fun token =>
        ExpressionTrace.text { tokens := front ++ token :: back, rowIds } unset := by
  simp only [ExpressionTrace.text, List.map_append, List.map_cons]
  exact (StandsIn.intercalate " " _ _).comp (TraceToken.text unset)

namespace LeafContext

theorem standsIn_literal (around : LeafContext) (unset : String)
    : StandsIn around.leafText fun leaf =>
        (TraceToken.literal (around.fill leaf)).text unset :=
  around.standsIn_traceText

theorem standsIn_var (around : LeafContext) (unset path : String)
    : StandsIn around.leafText fun leaf =>
        (TraceToken.var path (some (around.fill leaf))).text unset :=
  around.standsIn_traceText.trans (.between (path ++ " (was ") ")" _)

/-- Variables that differ in nothing but a text and a number are shown differently, and also if
their paths differ: the text ends in a quotation mark.
-/
theorem var_text_ne {around : LeafContext} (outside : around.inRange = false) (s : String)
    (x : Float) (unset path other : String)
    : (TraceToken.var path (some (around.fill (.text s)))).text unset
      ≠ (TraceToken.var other (some (around.fill (.number x)))).text unset := by
  obtain ⟨before, after, within⟩ := around.standsIn_traceText
  have shown (path : String) (leaf : Value)
      : (TraceToken.var path (some (around.fill leaf))).text unset
        = path ++ " (was " ++ before ++ leaf.traceText ++ (after ++ ")") := by
    have leafText : around.leafText leaf = leaf.traceText := by
      rw [LeafContext.leafText, outside]
      rfl
    simp only [TraceToken.text, Option.map_some, Option.getD_some, within, leafText,
      String.append_assoc]
  rw [shown, shown, Ne, String.append_left_inj]
  exact Value.append_traceText_text_ne _ _ s x

end LeafContext

/-- A text and a number in the same place of otherwise equal values are shown alike in a trace
exactly when the place is in a range and the text is that of the number. This holds of literals and
of variables, and outside of ranges the variables may also have different paths.
-/
theorem text_told_from_number_outside_ranges (around : LeafContext) (s : String) (x : Float)
    (front back : List TraceToken) (rowIds : List String) (unset : String)
    : let shown (token : TraceToken) : String :=
        ExpressionTrace.text { tokens := front ++ token :: back, rowIds } unset
      let v := around.fill (.text s)
      let w := around.fill (.number x)
      (shown (.literal v) = shown (.literal w) ↔ around.inRange ∧ s = Decimal.numberText x)
      ∧ (∀ path,
          shown (.var path (some v)) = shown (.var path (some w))
          ↔ around.inRange ∧ s = Decimal.numberText x)
      ∧ (around.inRange = false →
          ∀ path other, shown (.var path (some v)) ≠ shown (.var other (some w))) := by
  intro shown v w
  have trace : StandsIn (TraceToken.text unset) shown :=
    ExpressionTrace.standsIn_text front back rowIds unset
  refine ⟨?_, fun path => ?_, fun outside path other => ?_⟩
  · exact trace.eq_iff.trans
      ((around.standsIn_literal unset).eq_iff.trans (around.leafText_eq_iff s x))
  · exact trace.eq_iff.trans
      ((around.standsIn_var unset path).eq_iff.trans (around.leafText_eq_iff s x))
  · exact mt trace.eq_iff.mp (around.var_text_ne outside s x unset path other)

/-- The text `1` and the number 1 in a list of lists, as values of two variables. -/
theorem text_told_from_number_outside_ranges_nested
    : let around : LeafContext := .item [.null] (.item [] .here [.text "a"]) []
      let shown (token : TraceToken) : String :=
        ExpressionTrace.text { tokens := [token, .operator .add], rowIds := [] } "?"
      around.inRange = false
      ∧ "1" = Decimal.numberText 1
      ∧ shown (.literal (around.fill (.text "1"))) ≠ shown (.literal (around.fill (.number 1)))
      ∧ shown (.var "p" (some (around.fill (.text "1"))))
        ≠ shown (.var "q" (some (around.fill (.number 1)))) := by
  intro around shown
  have outside : around.inRange = false := rfl
  obtain ⟨literals, -, apart⟩ :=
    text_told_from_number_outside_ranges around "1" 1 [] [.operator .add] [] "?"
  refine ⟨outside, by decide +kernel, ?_, apart outside "p" "q"⟩
  exact fun same => absurd (literals.mp same).1 (by rw [outside]; exact Bool.noConfusion)

/-- The ranges from the text `1` and from the number 1 are shown alike, as literals and as values of
a variable.
-/
theorem range_ends_not_told_apart
    : let around : LeafContext := .lower .here (.number 2)
      let v := around.fill (.text "1")
      let w := around.fill (.number 1)
      v = .range (.text "1") (.number 2)
      ∧ w = .range (.number 1) (.number 2)
      ∧ (TraceToken.literal v).text "?" = "1 - 2"
      ∧ (TraceToken.literal w).text "?" = "1 - 2"
      ∧ (TraceToken.var "p" (some v)).text "?" = (TraceToken.var "p" (some w)).text "?" := by
  intro around v w
  exact ⟨rfl, rfl, by decide +kernel, by decide +kernel, by decide +kernel⟩

end RowFormula
