import KonfirmBackend.Lib.Transition
import KonfirmBackend.Lib.InFlight
import KonfirmBackend.Lib.OrderedLog
import KonfirmBackend.Lib.DurableCursor
import KonfirmBackend.Lib.FirstWrite
import KonfirmBackend.Lib.LastWrite
import KonfirmBackend.Lib.Mirror
import KonfirmBackend.Lib.VersionedCell
import KonfirmBackend.Lib.Budget
import KonfirmBackend.Lib.Attempts
import KonfirmBackend.Lib.UndoLog
import KonfirmBackend.Lib.Grouping
import KonfirmBackend.Lib.Paging
import KonfirmBackend.Lib.Promise
import KonfirmBackend.Lib.SignedToken
import KonfirmBackend.Lib.ThreeValued
import KonfirmBackend.Lib.Program
import KonfirmBackend.Lib.Rounding
import KonfirmBackend.Lib.Numeral
import KonfirmBackend.Lib.BigEndian
import KonfirmBackend.Lib.Hex
import KonfirmBackend.Lib.Binary64
import KonfirmBackend.Lib.JsNumber
import KonfirmBackend.Lib.QueryString
import KonfirmBackend.Common.Asset
import KonfirmBackend.Common.ChannelClaim
import KonfirmBackend.Common.Retry
import KonfirmBackend.Common.Fetch
import KonfirmBackend.Common.SubmissionLock
import KonfirmBackend.Common.SubmissionLine
import KonfirmBackend.Common.SubmissionFifo
import KonfirmBackend.Common.FacilitatorSigner
import KonfirmBackend.Reconciler.Decimal
import KonfirmBackend.Reconciler.Horizon
import KonfirmBackend.Reconciler.Store
import KonfirmBackend.Reconciler.FeeMath
import KonfirmBackend.Reconciler.Watch
import KonfirmBackend.Reconciler.CursorSafety
import KonfirmBackend.Reconciler.Received
import KonfirmBackend.Reconciler.Completeness
import KonfirmBackend.Reconciler.Promo
import KonfirmBackend.Reconciler.VolumeCap
import KonfirmBackend.Reconciler.Valuation
import KonfirmBackend.Reconciler.PendingChecks
import KonfirmBackend.Reconciler.Interference
import KonfirmBackend.Reconciler.Screening
import KonfirmBackend.Payments
import KonfirmBackend.PayUri
import KonfirmBackend.Sessions
import KonfirmBackend.Withdrawals
import KonfirmBackend.Deposits
import KonfirmBackend.WithdrawalAttempts
import KonfirmBackend.X402.Settlement
import KonfirmBackend.X402.Resubmission
import KonfirmBackend.Channel.Row
import KonfirmBackend.Channel.System
import KonfirmBackend.Channel.Claims
import KonfirmBackend.Channel.ClaimCall
import KonfirmBackend.Channel.Linearization
import KonfirmBackend.Channel.Integrity
import KonfirmBackend.Channel.Settled
import KonfirmBackend.Channel.Status
import KonfirmBackend.Channel.Keeper
import KonfirmBackend.Channel.Watchtower
import KonfirmBackend.Channel.Closing
import KonfirmBackend.Channel.SelfHealing
import KonfirmBackend.Channel.Relay
import KonfirmBackend.Channel.Isolation
import KonfirmBackend.Channel.Opening
import KonfirmBackend.Channel.Wire
import KonfirmBackend.Facilitator.SpendGuard
import KonfirmBackend.Facilitator.Sweep
import KonfirmBackend.Facilitator.SubmissionQueue
import KonfirmBackend.Facilitator.RelaySections
import KonfirmBackend.Facilitator.Environment
import KonfirmBackend.Compliance.OnChain
import KonfirmBackend.Compliance.Gates
import KonfirmBackend.Referrals.Sweep
import KonfirmBackend.Referrals.Delivery
import KonfirmBackend.Referrals.Rewards
import KonfirmBackend.Auth.Accounts
import KonfirmBackend.Auth.MyReferrals
import KonfirmBackend.Auth.Signup
import KonfirmBackend.Auth.SignupRuns
import KonfirmBackend.Auth.Tokens
import KonfirmBackend.Auth.Access
import KonfirmBackend.Auth.ReferralForest
import KonfirmBackend.Links
import KonfirmBackend.Admin.Rewind
import KonfirmBackend.Admin.Replay
import KonfirmBackend.Admin.Audit
import KonfirmBackend.Admin.Figures
import KonfirmBackend.Admin.Books
import KonfirmBackend.Admin.Pages
import KonfirmBackend.Bazaar
import KonfirmBackend.Db.FileNames
import KonfirmBackend.Db.Migrate
import KonfirmBackend.Db.Migrations
import KonfirmBackend.Db.Schema
import KonfirmBackend.Db.Catalog
import KonfirmBackend.Checkout
