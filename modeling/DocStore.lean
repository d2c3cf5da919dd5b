import DocStore.Main
import DocStore.Schema.Writer
import DocStore.Store.Event
import DocStore.Store.Backend
import DocStore.Store.Table
import DocStore.Store.Typed
import DocStore.Proofs.Sql.Binding
import DocStore.Proofs.Sql.Meaning
import DocStore.Proofs.Sql.Operand
import DocStore.Proofs.Numeric.Readable
import DocStore.Proofs.Numeric.Integer
import DocStore.Proofs.Numeric.Order
import DocStore.Proofs.Numeric.Spelling
import DocStore.Proofs.Numeric.Written
import DocStore.Proofs.Numeric.Layout
import DocStore.Proofs.Sql.Agreement
import DocStore.Proofs.Check.Alike
import DocStore.Proofs.Sql.Noninterference
import DocStore.Proofs.Sql.Lexeme
import DocStore.Proofs.Sql.Balanced
import DocStore.Proofs.Sql.Closed
import DocStore.Proofs.Sql.Numbering
import DocStore.Proofs.Sql.Placeholders
import DocStore.Proofs.Sql.Written
import DocStore.Proofs.Check.Places
import DocStore.Proofs.Sql.Parameters
import DocStore.Proofs.Sql.Execution
import DocStore.Proofs.KeyList
import DocStore.Proofs.Store.Order
import DocStore.Proofs.Store.Access
import DocStore.Proofs.Store.Expiry
import DocStore.Proofs.Store.Statements
import DocStore.Proofs.Check.Exact
import DocStore.Proofs.Check.Comparison
import DocStore.Proofs.Store.Partitions
import DocStore.Proofs.Store.Layers
import DocStore.Proofs.Store.Errors
import DocStore.Proofs.Check.Captures
import DocStore.Proofs.Store.Accounting
import DocStore.Proofs.Query.Grammar
import DocStore.Proofs.Query.Literals
import DocStore.Proofs.Query.Parsing
import DocStore.Proofs.Store.View
import DocStore.Proofs.Sql.Composition
import DocStore.Proofs.Store.Arguments
import DocStore.Proofs.Check.Locality
import DocStore.Proofs.Schema.RoundTrip
import DocStore.Proofs.Check.Nulls
import DocStore.Proofs.Check.Symmetry
import DocStore.Proofs.Check.Enumerated
import DocStore.Proofs.Check.Membership
import DocStore.Proofs.Check.Junction
import DocStore.Proofs.Store.Deletion
import DocStore.Proofs.Store.Lifecycle
import DocStore.Proofs.Query.Numerals
import DocStore.Proofs.Query.Scanning
import DocStore.Proofs.Query.Extents
import DocStore.Proofs.Query.Lookahead
import DocStore.Proofs.Query.Integers
import DocStore.Proofs.Query.Exchange
import DocStore.Proofs.Query.Respelling
import DocStore.Proofs.Query.Strings
import DocStore.Proofs.Query.Lambda
import DocStore.Proofs.Query.Bytewise
import DocStore.Proofs.Query.Offsets
import DocStore.Proofs.Sql.Patterns
import DocStore.Proofs.Text.Case
import DocStore.Proofs.Check.Texts
import DocStore.Proofs.Store.Catalog
import DocStore.Proofs.Query.Operands
import DocStore.Proofs.Check.Forms
import DocStore.Proofs.Schema.Resolution
import DocStore.Proofs.Query.Origins
import DocStore.Proofs.Query.WellFormed
import DocStore.Proofs.Sql.Token
import DocStore.Proofs.Sql.Reading
import DocStore.Proofs.Sql.Rendering
import DocStore.Proofs.Sql.Faithful
import DocStore.Proofs.Sql.Fragment
import DocStore.Proofs.Sql.Command
import DocStore.Proofs.Sql.CommandText
import DocStore.Proofs.Sql.Definition
import DocStore.Proofs.Sql.Projection
