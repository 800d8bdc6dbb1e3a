import Spreadsheet.Calculation
import Spreadsheet.Proofs.Evaluation.Detection
import Spreadsheet.Proofs.Formula.Precedence
import Spreadsheet.Proofs.Sheet.Transparency
import Spreadsheet.Proofs.Sheet.Typed
import Spreadsheet.Proofs.Formula.Balance
import Spreadsheet.Proofs.Formula.Acceptance
import Spreadsheet.Proofs.Formula.Grouping
import Spreadsheet.Proofs.Formula.Words
import Spreadsheet.Proofs.Formula.Segments
import Spreadsheet.Proofs.Formula.Enclosing
import Spreadsheet.Proofs.Evaluation.Grouped
import Spreadsheet.Proofs.Number.Plain
import Spreadsheet.Proofs.Number.Unsigned
import Spreadsheet.Proofs.Formula.Delimited
import Spreadsheet.Proofs.Formula.Genuine
import Spreadsheet.Proofs.Formula.Formed
import Spreadsheet.Proofs.Formula.Rounded
import Spreadsheet.Proofs.Formula.Rendering
import Spreadsheet.Proofs.Evaluation.InternalErrors
import Spreadsheet.Proofs.Evaluation.Flat
import Spreadsheet.Proofs.Evaluation.Finite
import Spreadsheet.Proofs.Sheet.Changes
import Spreadsheet.Proofs.Sheet.Calculated
import Spreadsheet.Proofs.Sheet.PlainMap
import Spreadsheet.Proofs.Evaluation.Respelled
import Spreadsheet.Proofs.Evaluation.Differences
import Spreadsheet.Proofs.Evaluation.Blamed
import Spreadsheet.Proofs.Formula.SignedChains
import Spreadsheet.Proofs.Formula.Spacing
import Spreadsheet.Proofs.Formula.NestingLimit
import Spreadsheet.Proofs.Evaluation.RangeLimit
import Spreadsheet.Proofs.Evaluation.Columns
import Spreadsheet.Proofs.Formula.Slices
import Spreadsheet.Proofs.Formula.Tiling
import Spreadsheet.Proofs.Formula.Separated
import Spreadsheet.Proofs.Formula.Reserved
import Spreadsheet.Proofs.Apply.Comparison
import Spreadsheet.Proofs.Sheet.Unnamed
import Spreadsheet.Proofs.Grid.Expansion
import Spreadsheet.Proofs.Grid.RangeText
import Spreadsheet.Proofs.Grid.ColumnLetters
import Spreadsheet.Proofs.Formula.Matching
import Spreadsheet.Proofs.Evaluation.Accounting
