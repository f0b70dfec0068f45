import SchemaScalar.Bound
import SchemaScalar.Builtin
import SchemaScalar.Calendar.Date
import SchemaScalar.Calendar.Instant
import SchemaScalar.Calendar.Iso8601
import SchemaScalar.Calendar.Layout
import SchemaScalar.Config
import SchemaScalar.Conversion
import SchemaScalar.Decimal.Binary64
import SchemaScalar.Decimal.Rounding
import SchemaScalar.Decimal.Shortest
import SchemaScalar.Decimal.Style
import SchemaScalar.Definition
import SchemaScalar.Descriptor
import SchemaScalar.Json.Basic
import SchemaScalar.Json.Container
import SchemaScalar.Json.Decoder
import SchemaScalar.Json.Fault
import SchemaScalar.Json.Numeral
import SchemaScalar.Json.Printer
import SchemaScalar.Json.Quoted
import SchemaScalar.Json.Reader
import SchemaScalar.Json.Record
import SchemaScalar.Json.Value
import SchemaScalar.Leaf
import SchemaScalar.Outcome
import SchemaScalar.Proofs.Calendar.DayNumber
import SchemaScalar.Proofs.Calendar.Item
import SchemaScalar.Proofs.Text.Digits
import SchemaScalar.Registry
import SchemaScalar.Scalar
import SchemaScalar.Text.Blank
import SchemaScalar.Text.Decimal
import SchemaScalar.Text.Extender
import SchemaScalar.Text.Hidden
import SchemaScalar.Text.Quoted
import SchemaScalar.Text.Ranges
import SchemaScalar.Proofs.Calendar.RoundTrip
import SchemaScalar.Proofs.Leaf.RoundTrip
import SchemaScalar.Proofs.Descriptor.Tower
import SchemaScalar.Proofs.Descriptor.Coercion
import SchemaScalar.Proofs.Registry.Entries
import SchemaScalar.Proofs.Registry.OfConfig
import SchemaScalar.Proofs.Registry.History
import SchemaScalar.Proofs.Calendar.Stamp
import SchemaScalar.Proofs.Descriptor.Dates
import SchemaScalar.Proofs.Json.Container
import SchemaScalar.Proofs.Json.Decoder
import SchemaScalar.Proofs.Json.Record
import SchemaScalar.Proofs.Config.RoundTrip
import SchemaScalar.Proofs.Definition.Build
import SchemaScalar.Proofs.Leaf.Domain
import SchemaScalar.Proofs.Decimal.Exact
import SchemaScalar.Proofs.Descriptor.Truncation
import SchemaScalar.Proofs.Json.Tree
import SchemaScalar.Proofs.Json.Meaning
import SchemaScalar.Proofs.Json.Schema
import SchemaScalar.Proofs.Config.Schema
import SchemaScalar.Proofs.Bound.Order
import SchemaScalar.Proofs.Descriptor.Stacking
import SchemaScalar.Proofs.Definition.Satisfiable
import SchemaScalar.Proofs.Calendar.Spelling
import SchemaScalar.Proofs.Calendar.Manner
import SchemaScalar.Proofs.Calendar.Refusal
import SchemaScalar.Proofs.Descriptor.DateTexts
import SchemaScalar.Proofs.Calendar.Concord
import SchemaScalar.Proofs.Outcome.Chain
import SchemaScalar.Proofs.Descriptor.Identity
import SchemaScalar.Proofs.Json.Agreement
import SchemaScalar.Proofs.Json.Sorted
import SchemaScalar.Proofs.Definition.Reading
