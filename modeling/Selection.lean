import Selection.Calendar.Date
import Selection.Calendar.DateTime
import Selection.Calendar.Duration
import Selection.Calendar.TimeOfDay
import Selection.Compile.Basic
import Selection.Compile.Context
import Selection.Compile.Environment
import Selection.Compile.Error
import Selection.Compile.Operand
import Selection.Compile.Settings
import Selection.Compile.Sigil
import Selection.Compile.Sum
import Selection.Criterion.Basic
import Selection.Criterion.Operator
import Selection.Document.Basic
import Selection.Document.Criterion
import Selection.Document.Reading
import Selection.Document.Writing
import Selection.Json.Basic
import Selection.Json.Reading
import Selection.Json.Source
import Selection.Lambda.Basic
import Selection.Lambda.Predicate
import Selection.Lambda.Test
import Selection.Number.Approximation
import Selection.Number.Binary64
import Selection.Number.Decimal
import Selection.Number.Reading
import Selection.Number.Shortest
import Selection.Pattern.Basic
import Selection.Record
import Selection.Sample.Catalog
import Selection.Sample.Customers
import Selection.Schema.Basic
import Selection.Schema.Resolve
import Selection.Sql.Filter
import Selection.Sql.Lowering
import Selection.Text.Blank
import Selection.Text.CaseFold
import Selection.Text.Hex
import Selection.Text.Numeral
import Selection.Text.Printable
import Selection.Text.Quoted
import Selection.Text.Scan
import Selection.Uuid
import Selection.Value.Basic
import Selection.Value.Conversion
import Selection.Value.DataType
import Selection.Value.Text
import Selection.Proofs.Compilation
import Selection.Proofs.Path
import Selection.Proofs.Reading
import Selection.Proofs.Meaning
import Selection.Proofs.Evaluation
import Selection.Sample.Criteria
import Selection.Proofs.Engine
import Selection.Proofs.Absence
import Selection.Proofs.Lowering
import Selection.Proofs.Formed
import Selection.Proofs.Correlation
import Selection.Proofs.Lowered
import Selection.Proofs.Numeral
import Selection.Proofs.Characters
import Selection.Proofs.Scan
import Selection.Proofs.Calendar
import Selection.Proofs.Clock
import Selection.Proofs.Duration
import Selection.Proofs.Decimal
import Selection.Proofs.Uuid
import Selection.Proofs.Wire
import Selection.Proofs.Coercion
import Selection.Proofs.Documents
import Selection.Proofs.Sum
import Selection.Proofs.Binary64
import Selection.Proofs.Json
import Selection.Proofs.JsonText
import Selection.Proofs.Decoding
import Selection.Proofs.Decoded
import Selection.Proofs.RoundTrip
import Selection.Proofs.Tokens
import Selection.Proofs.Quoting
import Selection.Proofs.Injection
import Selection.Proofs.Typing
import Selection.Proofs.Delegation
import Selection.Proofs.Portable
import Selection.Proofs.Versions
import Selection.Proofs.Shape
import Selection.Proofs.Except
import Selection.Proofs.Dependence
import Selection.Proofs.Faults
import Selection.Proofs.Modes
import Selection.Proofs.SetBody
import Selection.Proofs.Like
import Selection.Proofs.Needle
import Selection.Proofs.DurationGrammar
import Selection.Proofs.DurationOrder
import Selection.Proofs.Addition
import Selection.Proofs.ExactSum
import Selection.Proofs.IntegerSum
import Selection.Proofs.DecimalNumber
import Selection.Proofs.DecimalText
import Selection.Proofs.Lossless
import Selection.Proofs.NumberOnWire
import Selection.Proofs.NumberOrder
import Selection.Proofs.DurationText
import Selection.Proofs.UndefinedSum
import Selection.Proofs.FieldPath
import Selection.Proofs.Sigil
import Selection.Proofs.Context
import Selection.Proofs.Reordering
import Selection.Proofs.Rounding
import Selection.Proofs.FloatCoercion
import Selection.Proofs.Folding
import Selection.Proofs.NormalForm
import Selection.Proofs.Lexemes
import Selection.Proofs.Grouping
