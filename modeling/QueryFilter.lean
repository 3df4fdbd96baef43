import QueryFilter.Journal
import QueryFilter.Main
import QueryFilter.Settings
import QueryFilter.Proofs.Token.Boundary
import QueryFilter.Proofs.Token.Spelling
import QueryFilter.Proofs.Query.Proper
import QueryFilter.Proofs.Query.Derivation
import QueryFilter.Proofs.Query.Parentheses
import QueryFilter.Proofs.Query.Yield
import QueryFilter.Proofs.Filter.Leaf
import QueryFilter.Proofs.Filter.Clause
import QueryFilter.Proofs.Filter.Output
import QueryFilter.Proofs.Filter.Meaning
import QueryFilter.Proofs.Token.Lossless
import QueryFilter.Proofs.Filter.Parity
import QueryFilter.Proofs.Token.Reread
import QueryFilter.Proofs.Query.RoundTrip
import QueryFilter.Proofs.Number.Rounding
import QueryFilter.Proofs.Moment.Calendar
import QueryFilter.Proofs.Moment.Timestamp
import QueryFilter.Proofs.Literal.RoundTrip
import QueryFilter.Proofs.Query.Limits
import QueryFilter.Proofs.Filter.Fault
import QueryFilter.Proofs.Filter.Identifier
import QueryFilter.Proofs.Filter.SearchCount
import QueryFilter.Proofs.Filter.Conjunction
import QueryFilter.Proofs.Filter.Grouping
import QueryFilter.Proofs.Filter.Rewriting
import QueryFilter.Proofs.Filter.DeMorgan
import QueryFilter.Proofs.Filter.DoubleNegation
import QueryFilter.Proofs.Query.Balance
import QueryFilter.Proofs.Filter.Merging
import QueryFilter.Proofs.Filter.Matching
import QueryFilter.Proofs.Literal.DetectorOrder
import QueryFilter.Proofs.Moment.FormatOrder
import QueryFilter.Proofs.Token.FieldName
import QueryFilter.Proofs.Filter.Quoting
import QueryFilter.Proofs.Token.DateTime
import QueryFilter.Proofs.Literal.DateTime
import QueryFilter.Proofs.Literal.Integer
import QueryFilter.Proofs.Filter.DateRange
import QueryFilter.Proofs.Text.Offset
import QueryFilter.Proofs.Literal.RangeKeyword
import QueryFilter.Query.Cursor
import QueryFilter.Proofs.Query.Cursor
import QueryFilter.Filter.SearchRounds
import QueryFilter.Proofs.Filter.SearchRounds
