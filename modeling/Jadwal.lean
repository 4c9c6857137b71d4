import Jadwal.Lib.Table
import Jadwal.Lib.Sweep
import Jadwal.Lib.Run
import Jadwal.Lib.Outcome
import Jadwal.Lib.FirstFit
import Jadwal.Lib.Numeral
import Jadwal.Reconfiguration
import Jadwal.Seating
import Jadwal.Takedown
import Jadwal.Cascade
import Jadwal.Schema
import Jadwal.Loyalty
import Jadwal.LedgerBalance
import Jadwal.BalanceConcurrency
import Jadwal.Availability
import Jadwal.Admission
import Jadwal.DayView
import Jadwal.RecoveryRule
import Jadwal.RowCap
import Jadwal.MonthView
import Jadwal.HourPicker
import Jadwal.StayPicker
import Jadwal.Wallets
import Jadwal.CouponOnce
import Jadwal.DoubleBooking
import Jadwal.System
import Jadwal.Consistency
import Jadwal.Baskets
import Jadwal.Points
import Jadwal.Payout
import Jadwal.PayoutMarking
import Jadwal.PayoutRuns
import Jadwal.Reconciliation
import Jadwal.SnapshotJson
import Jadwal.Signature
import Jadwal.Captures
import Jadwal.Refunds
import Jadwal.Reaping
import Jadwal.CouponEffects
import Jadwal.CouponCap
import Jadwal.CouponUses
import Jadwal.Vouchers
import Jadwal.OrphanRecovery
import Jadwal.Replays
import Jadwal.Capacity
import Jadwal.Sessions
import Jadwal.SessionFamilies
import Jadwal.Revocation
import Jadwal.SessionGrants
import Jadwal.EmailOtp
import Jadwal.AvailabilityCache
import Jadwal.Peak
import Jadwal.Backfill
import Jadwal.Prices
import Jadwal.RefundDecisions
import Jadwal.Lockout
import Jadwal.Preview
import Jadwal.Months
import Jadwal.ListedSlots
import Jadwal.EmailOutbox
import Jadwal.CircuitBreaker
import Jadwal.ActivityBlocks
import Jadwal.SpecialPrices
import Jadwal.EmailQuota
import Jadwal.ActivityCapacity
import Jadwal.Sanitize
import Jadwal.ApiClient
import Jadwal.LeaderLock
import Jadwal.Throttle
import Jadwal.LocaleRoutes
import Jadwal.ResetTokens
import Jadwal.SanitizeBody
import Jadwal.AccessTokens
import Jadwal.UnsubscribeToken
import Jadwal.Suppressions
import Jadwal.Slugs
import Jadwal.SendBudgets
import Jadwal.CatalogHints
import Jadwal.Deletion
