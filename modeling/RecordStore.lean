import RecordStore.Config.Load
import RecordStore.Dialect.Name
import RecordStore.Proofs.Cache.StatementBytes
import RecordStore.Proofs.Reading.Bypassing
import RecordStore.Proofs.Reading.Repeated
import RecordStore.Proofs.Reading.RowFormat
import RecordStore.Proofs.Sharing.AbsentKeys
import RecordStore.Proofs.Sharing.KeyLists
import RecordStore.Proofs.Sharing.Locking
import RecordStore.Proofs.Sharing.OwnKeys
import RecordStore.Proofs.Sql.CountedRows
import RecordStore.Proofs.Sql.Dialects
import RecordStore.Proofs.Sql.Expansion
import RecordStore.Proofs.Sql.Identifiers
import RecordStore.Proofs.Sql.JoinConditions
import RecordStore.Proofs.Sql.Membership
import RecordStore.Proofs.Sql.Occurrences
import RecordStore.Proofs.Sql.Overriding
import RecordStore.Proofs.Sql.QueryParts
import RecordStore.Proofs.Sql.QueryShapes
import RecordStore.Proofs.Sql.ReadBack
import RecordStore.Proofs.Sql.References
import RecordStore.Proofs.Sql.Restoring
import RecordStore.Proofs.Sql.SearchColumns
import RecordStore.Proofs.Sql.Targets
import RecordStore.Proofs.Sql.TextLiterals
import RecordStore.Proofs.Sql.ValueLiterals
import RecordStore.Proofs.Sql.Verdicts
import RecordStore.Proofs.Writing.Counted
import RecordStore.Proofs.Writing.KeyConditions
import RecordStore.Proofs.Writing.Placeholder
import RecordStore.Record.Row
import RecordStore.Repository
