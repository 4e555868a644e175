import RowFormula.Decimal.Binary
import RowFormula.Decimal.Numeral

/-! Signed words of 64 bits beside doubles. -/

namespace RowFormula.Decimal

/-- The integer part of a finite double as a word, the nearest word when it is too large.
-/
def word? (x : Float) : Option Int64 :=
  (wholePart? x).map Int64.ofIntClamp

/-- The double nearest to a word. -/
def ofWord (n : Int64) : Float :=
  signed (n < 0) n.toInt.natAbs.toUInt64.toFloat

end RowFormula.Decimal
