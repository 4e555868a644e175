import RowFormula.Main
import RowFormula.Log.Json
import RowFormula.Proofs.Evaluation.Faults
import RowFormula.Proofs.Evaluation.Meaning
import RowFormula.Proofs.Formula.Matching
import RowFormula.Proofs.Formula.RoundTrip
import RowFormula.Proofs.History.Filling
import RowFormula.Proofs.History.Mirroring
import RowFormula.Proofs.Log.Transparency
import RowFormula.Proofs.Scenario.Loading
import RowFormula.Proofs.Trigger.Independence
import RowFormula.Proofs.Variable.Cardinality
import RowFormula.Proofs.Variable.Recorded
import RowFormula.Proofs.Formula.Relabeling
import RowFormula.Proofs.Formula.RelativeOrder
import RowFormula.Proofs.Evaluation.Replaying
import RowFormula.Proofs.Variable.Visits
import RowFormula.Proofs.Log.Touching
import RowFormula.Proofs.Trigger.Siblings
import RowFormula.Proofs.Trigger.Repetition
import RowFormula.Proofs.Scenario.Relations
import RowFormula.Proofs.Scenario.Resaving
import RowFormula.Proofs.Rows.Histories
import RowFormula.Proofs.Evaluation.Grouping
import RowFormula.Proofs.Evaluation.Chains
import RowFormula.Proofs.Evaluation.Unset
import RowFormula.Proofs.Variable.Functions
import RowFormula.Proofs.Decimal.Whole
import RowFormula.Proofs.Variable.Extremes
import RowFormula.Proofs.Trigger.Storing
import RowFormula.Proofs.Formula.Occurrences
import RowFormula.Proofs.Variable.PathByPath
import RowFormula.Proofs.Variable.Grammar
import RowFormula.Proofs.Operator.WrittenDays
import RowFormula.Proofs.Decimal.Decoding
import RowFormula.Proofs.Decimal.Words
import RowFormula.Proofs.Calendar.Moving
import RowFormula.Proofs.Decimal.Truncation
import RowFormula.Proofs.Operator.MovedDates
import RowFormula.Proofs.Decimal.Places
import RowFormula.Proofs.Operator.Comparisons
import RowFormula.Proofs.Calendar.DayNumbers
import RowFormula.Proofs.Decimal.Digits
import RowFormula.Proofs.Calendar.ReadingBack
import RowFormula.Proofs.Value.DatesAsText
import RowFormula.Proofs.Log.Pages
import RowFormula.Proofs.Log.Histories
import RowFormula.Proofs.Variable.Leaves
import RowFormula.Proofs.Formula.Quoting
import RowFormula.Proofs.Formula.Nesting
