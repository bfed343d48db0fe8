import MiniSql.Config.Document
import MiniSql.Engine
import MiniSql.Json.Reader
import MiniSql.Schema.Document
import MiniSql.Scope
import MiniSql.Syntax.Render
import MiniSql.Text.Pattern
import MiniSql.Text.Pieces
import MiniSql.Value.GroupKey
import MiniSql.Value.Order
import MiniSql.Proofs.Outcome
import MiniSql.Proofs.Store
import MiniSql.Proofs.Atomicity
import MiniSql.Proofs.FittingRow
import MiniSql.Proofs.SoundTable
import MiniSql.Proofs.UpdateKeys
import MiniSql.Proofs.BuiltTable
import MiniSql.Proofs.InsertKeys
import MiniSql.Proofs.RowByRow
import MiniSql.Proofs.StoredKeys
import MiniSql.Proofs.ColumnTypes
import MiniSql.Proofs.GroupView
import MiniSql.Proofs.HitRows
import MiniSql.Proofs.QueryRows
import MiniSql.Proofs.RoundTrip
import MiniSql.Proofs.GroupKeys
import MiniSql.Proofs.SortOrder
import MiniSql.Proofs.Precedence
import MiniSql.Proofs.ClauseOrder
import MiniSql.Proofs.FilledIn
import MiniSql.Proofs.Rectangles
import MiniSql.Proofs.PlainSelect
import MiniSql.Proofs.AliasedRows
import MiniSql.Proofs.SameColumns
import MiniSql.Proofs.TablePair
import MiniSql.Proofs.AntiJoin
import MiniSql.Proofs.GroupBlocks
import MiniSql.Proofs.CountedPartners
import MiniSql.Proofs.Gaps
import MiniSql.Proofs.Lexemes
import MiniSql.Proofs.Covering
import MiniSql.Proofs.Curtailing
import MiniSql.Proofs.Respacing
import MiniSql.Proofs.CutOut
import MiniSql.Proofs.RowIdentity
import MiniSql.Proofs.SeededValues
import MiniSql.Proofs.StagedValues
import MiniSql.Proofs.SharedColumns
import MiniSql.Proofs.Blocks
import MiniSql.Proofs.CarriedClauses
import MiniSql.Proofs.CarriedSelects
import MiniSql.Proofs.OwnText
import MiniSql.Proofs.DistinctGroups
import MiniSql.Proofs.MirroredJoins
import MiniSql.Proofs.DerivedTables
import MiniSql.Proofs.RunFaults
import MiniSql.Proofs.QueryFaults
import MiniSql.Proofs.StatementFaults
import MiniSql.Proofs.ErrorClasses
import MiniSql.Proofs.AddedRows
import MiniSql.Proofs.FreshIds
import MiniSql.Proofs.LastInsertId
import MiniSql.Proofs.RewrittenRows
import MiniSql.Proofs.TargetOrder
import MiniSql.Proofs.RepeatedUpdates
import MiniSql.Proofs.LiteralUpdates
import MiniSql.Proofs.Upserts
import MiniSql.Proofs.SortedRows
import MiniSql.Proofs.PositionKeys
import MiniSql.Proofs.Membership
import MiniSql.Proofs.GroupPartition
import MiniSql.Proofs.IntegerArithmetic
import MiniSql.Proofs.GroupValues
import MiniSql.Proofs.Extremes
import MiniSql.Proofs.RoundedIntegers
import MiniSql.Proofs.Wildcards
import MiniSql.Proofs.Timestamps
import MiniSql.Proofs.NumericStrings
import MiniSql.Proofs.Delimiters
import MiniSql.Proofs.SeparatedStatements
import MiniSql.Proofs.WrittenLiterals
import MiniSql.Proofs.RenderedNames
import MiniSql.Proofs.TrimmedPhrases
import MiniSql.Proofs.RoundedDecimals
