import IndexQuery.Text.Blank
import IndexQuery.Text.Lowercase
import IndexQuery.Number.Layout
import IndexQuery.Number.Decimal
import IndexQuery.Calendar.Reading
import IndexQuery.Text.Utf8
import IndexQuery.Data.JsonText
import IndexQuery.Data.JsonReading
import IndexQuery.Data.TomlReading
import IndexQuery.Schema
import IndexQuery.Literal
import IndexQuery.QueryText.Rendering
import IndexQuery.Tree.Data
import IndexQuery.Matching.Selection
import IndexQuery.Command
import IndexQuery.Filter.Query
import IndexQuery.FieldRecord
import IndexQuery.Main
import IndexQuery.Proofs.Tree.NormalForm
import IndexQuery.Proofs.Compilation.Meaning
import IndexQuery.Proofs.QueryText.Faithful
import IndexQuery.Proofs.Encoding.Fitting
import IndexQuery.Proofs.Matching.EqualityFamily
import IndexQuery.Proofs.Matching.PatternWords
import IndexQuery.Proofs.Encoding.EmptyTexts
import IndexQuery.Proofs.Stream.Steps
import IndexQuery.Proofs.Filter.Resolution
import IndexQuery.Proofs.Stream.Paging
import IndexQuery.Proofs.Sorting.Stable
import IndexQuery.Proofs.Matching.Ranking
import IndexQuery.Proofs.Matching.Selecting
import IndexQuery.Proofs.Number.Arithmetic
import IndexQuery.Proofs.Data.JsonNumbers
import IndexQuery.Proofs.Matching.Nearest
import IndexQuery.Proofs.Filter.Sorting
import IndexQuery.Proofs.Text.Trimming
import IndexQuery.Proofs.Filter.AllOrNothing
import IndexQuery.Proofs.Filter.Naming
import IndexQuery.Proofs.Filter.Shape
import IndexQuery.Proofs.Filter.Spelling
import IndexQuery.Proofs.Encoding.Outcomes
import IndexQuery.Proofs.CommandLine.Stages
import IndexQuery.Proofs.Matching.Modes
import IndexQuery.Proofs.Matching.CutPatterns
import IndexQuery.Proofs.Matching.Phrases
import IndexQuery.Proofs.Filter.Ranges
import IndexQuery.Proofs.Encoding.Dates
import IndexQuery.Proofs.Number.Exact
import IndexQuery.Proofs.Data.JsonTexts
import IndexQuery.Proofs.Encoding.Decimals
import IndexQuery.Proofs.Number.Stored
import IndexQuery.Proofs.Stream.Shown
import IndexQuery.Proofs.Tree.Dumps
import IndexQuery.Proofs.Schema.Distinct
import IndexQuery.Proofs.QueryText.Content
import IndexQuery.Proofs.QueryText.PatternPieces
import IndexQuery.Proofs.QueryText.Delimiters
import IndexQuery.Proofs.Field.ReadingBack
