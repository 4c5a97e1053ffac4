import StellarDonations.Matching.Program
import StellarDonations.Donations.Refund
import StellarDonations.Donations.Approval
import StellarDonations.Donations.CustodialReplay
import StellarDonations.Recurring.Cancellation
import StellarDonations.Crowdfunding.Milestones
import StellarDonations.Transactions.Durability
import StellarDonations.Transactions.StablePagination
import StellarDonations.Donations.Bulk
import StellarDonations.Idempotency.Reservations
import StellarDonations.Idempotency.Replay
import StellarDonations.Storage.Pool
import StellarDonations.Storage.Statements
import StellarDonations.Donations.Queue
import StellarDonations.Crowdfunding.CampaignMilestones
import StellarDonations.Sequences.Reservation
import StellarDonations.MultiSig.Submission
import StellarDonations.Auth.SignatureReplay
import StellarDonations.Stellar.Resubmission
import StellarDonations.Recovery.SocialRecovery
import StellarDonations.Donations.CampaignContribution
import StellarDonations.Donations.DailyCap
import StellarDonations.Resilience.BreakerCluster
import StellarDonations.Auth.KeyRotation
import StellarDonations.Auth.Quota
import StellarDonations.Auth.GeoRules
import StellarDonations.Transactions.Orphans
import StellarDonations.Streams.PaymentStream
import StellarDonations.Donations.BatchRight
import StellarDonations.Donations.Confirmation
import StellarDonations.Matching.CorporateLedger
import StellarDonations.Channels.ChannelState
import StellarDonations.Channels.ChannelParties
import StellarDonations.Auth.RefreshFamilies
import StellarDonations.Auth.Sep10
import StellarDonations.Auth.BackupCodes
import StellarDonations.Memos.KeyManager
import StellarDonations.Memos.Reencryption
import StellarDonations.Storage.MigrationRunner
import StellarDonations.Donations.Disputes
import StellarDonations.Donations.TaxReceipts
import StellarDonations.Donations.Totals
import StellarDonations.Donations.Velocity
import StellarDonations.Flags.FeatureFlags
import StellarDonations.Idempotency.Deduplication
import StellarDonations.Resilience.RateLimitStore
import StellarDonations.Streams.EventStream
import StellarDonations.Transactions.WalletSync
import StellarDonations.Audit.Integrity
import StellarDonations.Audit.Pagination
import StellarDonations.Auth.Base32
import StellarDonations.Auth.IpMatching
import StellarDonations.Auth.PermissionChecks
import StellarDonations.Donations.RecordAgreement
import StellarDonations.Donations.Retention
import StellarDonations.Donations.SortedPages
import StellarDonations.Exports.CsvSerializer
import StellarDonations.Logging.DataMasker
import StellarDonations.Memos.KeyConversion
import StellarDonations.Paging.Slices
import StellarDonations.Pledges.Amounts
import StellarDonations.Recurring.LeaseRuns
import StellarDonations.Recurring.NextExecution
import StellarDonations.Requests.FieldFilter
import StellarDonations.Requests.SchemaValidation
import StellarDonations.Resilience.HorizonPool
import StellarDonations.Routing.LeastFunded
import StellarDonations.Routing.RoundRobin
import StellarDonations.Sequences.SequenceCache
import StellarDonations.Sequences.SequenceManager
import StellarDonations.Stats.WeekKey
import StellarDonations.Stellar.FeeBump
import StellarDonations.Webhooks.Listing
import StellarDonations.Webhooks.SsrfFilter
import StellarDonations.GraphQL.PubSub
import StellarDonations.GraphQL.QueryDepth
