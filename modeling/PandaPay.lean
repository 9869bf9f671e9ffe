import PandaPay.Library.InsertionMap
import PandaPay.Library.Checked
import PandaPay.Library.PairLedger
import PandaPay.Json.Value
import PandaPay.Json.Text
import PandaPay.Json.Reorder
import PandaPay.Json.Printer
import PandaPay.Json.Decimal
import PandaPay.SharedExpenses.Validation
import PandaPay.SharedExpenses.Domain
import PandaPay.SharedExpenses.Journal
import PandaPay.SharedExpenses.Dart.Domain
import PandaPay.SharedExpenses.Dart.Journal
import PandaPay.SharedExpenses.Canonical
import PandaPay.SharedExpenses.Dart.Canonical
import PandaPay.SharedExpenses.Twins.Canonical
import PandaPay.SharedExpenses.Twins.Domain
import PandaPay.SharedExpenses.Twins.Journal
import PandaPay.SharedExpenses.Twins
import PandaPay.SharedExpenses.Allocation
import PandaPay.SharedExpenses.Obligations
import PandaPay.SharedExpenses.Waterfall
import PandaPay.SharedExpenses.Sheets
import PandaPay.SharedExpenses.JournalLaws
import PandaPay.SharedExpenses.Bill
import PandaPay.SharedExpenses.Sql.Snapshot
import PandaPay.Library.GroupBy
import PandaPay.SharedExpenses.Sql.Schema
import PandaPay.SharedExpenses.Sql.Commands
import PandaPay.SharedExpenses.Sql.Ownership
import PandaPay.Library.Trace
import PandaPay.Library.Balances
import PandaPay.SharedExpenses.Sql.Runs
import PandaPay.SharedExpenses.Sql.Projection
import PandaPay.SharedExpenses.Sql.References
import PandaPay.SharedExpenses.Sql.Ledger
import PandaPay.SharedExpenses.Sql.Consent
import PandaPay.SharedExpenses.Sql.Members
import PandaPay.SharedExpenses.Sql.Owners
import PandaPay.SharedExpenses.App.Commands
import PandaPay.SharedExpenses.App.Store
import PandaPay.SharedExpenses.App.Queue
import PandaPay.Library.Newest
import PandaPay.SharedExpenses.App.Merge
import PandaPay.Library.Keyset
import PandaPay.SharedExpenses.Feed.Query
import PandaPay.SharedExpenses.Feed.Pull
import PandaPay.SharedExpenses.Feed.Lossless
import PandaPay.SharedExpenses.App.Draft
import PandaPay.SharedExpenses.App.Preview
import PandaPay.Json.Stringify
import PandaPay.Json.Numeral
import PandaPay.Json.RoundTrip
import PandaPay.Json.Accepted
import PandaPay.PortableBackup.Contract
import PandaPay.PortableBackup.Canonical
import PandaPay.PortableBackup.Ndjson
import PandaPay.PortableBackup.Export
import PandaPay.PortableBackup.Exported
import PandaPay.PortableBackup.Sessions
import PandaPay.PortableBackup.Restore
import PandaPay.PortableBackup.Calls
import PandaPay.PortableBackup.Lifecycle
import PandaPay.PortableBackup.Verified
import PandaPay.PortableBackup.Staging
import PandaPay.PortableBackup.Inserts
import PandaPay.PortableBackup.Exact
import PandaPay.Library.BigEndian
import PandaPay.Library.Sealing
import PandaPay.PortableBackup.Envelope
import PandaPay.PortableBackup.Frames
import PandaPay.SmsV2.Contract
import PandaPay.SmsV2.Linker.Matching
import PandaPay.SmsV2.Linker.Run
import PandaPay.SmsV2.Linker.Joins
import PandaPay.SmsV2.Linker.Link
import PandaPay.SmsV2.Linker.Writes
import PandaPay.SmsV2.Linker.Found
import PandaPay.SmsV2.Linker.Steps
import PandaPay.SmsV2.Linker.Frame
import PandaPay.SmsV2.Linker.Calls
import PandaPay.SmsV2.Linker.Partition
import PandaPay.SmsV2.Linker.Rules
import PandaPay.SmsV2.Linker.Confirmed
import PandaPay.SmsV2.Linker.Replaced
import PandaPay.SmsV2.Linker.Indexed
import PandaPay.SmsV2.Linker.Receipts
import PandaPay.SmsV2.Server.Merge
import PandaPay.Referrals.Schema
import PandaPay.Referrals.Activation
import PandaPay.Referrals.Engagement
import PandaPay.Referrals.Spins
import PandaPay.Referrals.Operations
import PandaPay.Referrals.Effects
import PandaPay.Referrals.Refinement
import PandaPay.Referrals.Runs
import PandaPay.Referrals.Budget
import PandaPay.Referrals.Exclusion
import PandaPay.Referrals.Holds
import PandaPay.Library.Lease
import PandaPay.Outbox.Worker
import PandaPay.Outbox.Rewards
import PandaPay.Outbox.RewardFencing
import PandaPay.Outbox.Notifications
import PandaPay.Outbox.NotificationFencing
import PandaPay.Library.LastWriter
import PandaPay.Sync.Schema
import PandaPay.Sync.ApplyChange
import PandaPay.Sync.LastWrite
import PandaPay.Sync.Runs
import PandaPay.Library.Reader
import PandaPay.Sync.Pull
import PandaPay.Sync.Delivery
import PandaPay.Sync.Device
import PandaPay.Sync.LastEdit
import PandaPay.ForeignPayments.Lifecycle
import PandaPay.Library.Gregorian
import PandaPay.CardRewards.Windows
import PandaPay.CardRewards.Partition
import PandaPay.Library.Tally
import PandaPay.SmsV2.Ledger.Totals
import PandaPay.Library.Memo
import PandaPay.SmsV2.Ledger.Inheritance
import PandaPay.SmsV2.Linker.Agree
import PandaPay.SmsV2.Linker.Order
import PandaPay.SmsV2.Linker.Ties
import PandaPay.Library.Rounding
import PandaPay.CardRewards.Engine.Accrual
import PandaPay.CardRewards.Engine.Caps
import PandaPay.CardRewards.Engine.Limits
import PandaPay.CardRewards.Dart.Rules
import PandaPay.CardRewards.Dart.Transaction
import PandaPay.CardRewards.RuleChoice
import PandaPay.CardRewards.Conservation
import PandaPay.CardRewards.Dart.UnknownCaps
import PandaPay.CardRewards.Recording.FeeWaiverRebuild
import PandaPay.CardRewards.Recording.Again
import PandaPay.CardRewards.Recording.Idempotent
import PandaPay.Recurring.Expected
import PandaPay.ForeignPayments.Decimal
import PandaPay.SmsV2.Engine.Amounts
import PandaPay.Library.Best
import PandaPay.SmsV2.Category.MerchantKey
import PandaPay.SmsV2.Category.Resolver
import PandaPay.SmsV2.Instruments.Resolver
import PandaPay.SmsV2.Server.Instruments
import PandaPay.Library.Patterns
import PandaPay.SmsV2.Engine.Dates
import PandaPay.Transactions.References
import PandaPay.Transactions.Duplicates
import PandaPay.Referrals.Streaks
import PandaPay.Referrals.Progress
import PandaPay.SmsV2.Ledger.ProjectionWriter
import PandaPay.SmsV2.Server.Projection
import PandaPay.Library.Sorting
import PandaPay.Library.Grouping
import PandaPay.CardBills.Evidence
import PandaPay.CardBills.Payments
import PandaPay.CardBills.Credits
import PandaPay.CardBills.Order
import PandaPay.SpendReport.Csv
import PandaPay.CardRewards.CapClosure
import PandaPay.Merchants.Resolution
import PandaPay.CardRewards.Dart.Override
import PandaPay.CardRewards.Dart.SplitPlan
import PandaPay.SmsV2.Linker.Timelines
import PandaPay.SmsV2.Linker.Candidates
