import FxDealManager.Transactional.Program
import FxDealManager.Transactional.History
import FxDealManager.Transactional.Atomicity
import FxDealManager.Transactional.Exact
import FxDealManager.Transactional.Statements
import FxDealManager.Transactional.Interleaving
import FxDealManager.Transactional.Retry
import FxDealManager.Transactional.Locality
import FxDealManager.Transactional.Serialization
import FxDealManager.Arithmetic.Decimal
import FxDealManager.Arithmetic.Search
import FxDealManager.Arithmetic.Rounding
import FxDealManager.Arithmetic.Sums
import FxDealManager.Arithmetic.Products
import FxDealManager.Arithmetic.Context
import FxDealManager.Arithmetic.Quotients
import FxDealManager.Text.Csv
import FxDealManager.Text.Decimals
import FxDealManager.Text.DecimalTexts
import FxDealManager.Paging.Pages
import FxDealManager.Collections.Dictionaries
import FxDealManager.Domain.Identifiers
import FxDealManager.Repositories.Flush
import FxDealManager.Repositories.Rules
import FxDealManager.Repositories.ExactRules
import FxDealManager.Repositories.Fitting
import FxDealManager.Repositories.Locality
import FxDealManager.Api.Requests
import FxDealManager.Api.Positions
import FxDealManager.Api.PositionReport
import FxDealManager.Api.Reports
import FxDealManager.Api.Quotes
import FxDealManager.Api.Notifications
import FxDealManager.Lifecycle.Exits
import FxDealManager.Lifecycle.Endings
import FxDealManager.Lifecycle.Effects
import FxDealManager.Lifecycle.Changes
import FxDealManager.Lifecycle.Run
import FxDealManager.Lifecycle.Stamps
import FxDealManager.Lifecycle.Locality
import FxDealManager.Lifecycle.Independence
import FxDealManager.Lifecycle.Submission
import FxDealManager.Lifecycle.Settlement
import FxDealManager.Lifecycle.Transitions
import FxDealManager.Lifecycle.AuditTrail
import FxDealManager.Lifecycle.Acceptance
import FxDealManager.Lifecycle.Atomicity
import FxDealManager.Lifecycle.Duties
import FxDealManager.Lifecycle.Execution
import FxDealManager.Lifecycle.Solutions
import FxDealManager.Lifecycle.Chronicle
import FxDealManager.Lifecycle.ForwardDates
import FxDealManager.Validation.BusinessDays
import FxDealManager.Validation.Window
import FxDealManager.Validation.ValueDates
import FxDealManager.Validation.Verdict
import FxDealManager.Validation.Recording
import FxDealManager.Validation.Saving
import FxDealManager.Validation.Storage
import FxDealManager.Validation.Columns
import FxDealManager.Validation.History
import FxDealManager.Validation.Payments
import FxDealManager.Validation.Limits
import FxDealManager.Validation.CounterAmounts
import FxDealManager.Validation.LimitChecks
import FxDealManager.Validation.Precision
import FxDealManager.Lifecycle.Edits
import FxDealManager.Lifecycle.EditErrors
import FxDealManager.Lifecycle.EnteredNumbers
import FxDealManager.Lifecycle.Exposure
import FxDealManager.Validation.Gates
import FxDealManager.Lifecycle.Escape
import FxDealManager.Lifecycle.Readiness
import FxDealManager.Reporting.Completeness
import FxDealManager.Reporting.Accounts
import FxDealManager.Reporting.Complaints
import FxDealManager.Reporting.Events
import FxDealManager.Reporting.Terms
import FxDealManager.Reporting.DealsReport
import FxDealManager.Reporting.Queue
import FxDealManager.Reporting.Exports
import FxDealManager.Reporting.Formats
import FxDealManager.Reporting.Listings
import FxDealManager.Reporting.Search
import FxDealManager.Reporting.Quotes
import FxDealManager.Reporting.Notifications
import FxDealManager.Positions.Overview
import FxDealManager.Positions.Currencies
import FxDealManager.Positions.ReportErrors
import FxDealManager.Positions.Ledger
import FxDealManager.Positions.Bookings
import FxDealManager.Positions.ReportedOverview
import FxDealManager.Positions.Sending
import FxDealManager.Positions.References
import FxDealManager.Concurrency.Requests
import FxDealManager.Concurrency.Transitions
import FxDealManager.Concurrency.Validation
import FxDealManager.Concurrency.Notifications
import FxDealManager.Concurrency.Approval
import FxDealManager.Concurrency.Independence
