import GameClub.Analytics.Books
import GameClub.Analytics.Freshness
import GameClub.Analytics.Occupancy
import GameClub.Analytics.Rankings
import GameClub.Api.Privileges
import GameClub.Api.References
import GameClub.Api.Trail
import GameClub.Audit.Redaction
import GameClub.Auth.Endpoints
import GameClub.Auth.Enumeration
import GameClub.Auth.Faults
import GameClub.Auth.Lockout
import GameClub.Auth.Ownership
import GameClub.Auth.Replay
import GameClub.Auth.Revocation
import GameClub.Common.Decimal
import GameClub.Common.Splitting
import GameClub.Concurrency.Calls
import GameClub.Concurrency.Deadlock
import GameClub.Debt.Overpayment
import GameClub.Realtime.Gateway
import GameClub.Realtime.Handshake
import GameClub.Services.Announcements
import GameClub.Services.Closing
import GameClub.Services.Feed
import GameClub.Services.Groups
import GameClub.Services.Listings
import GameClub.Services.Notifications
import GameClub.Services.Rates
import GameClub.Services.Relocation
import GameClub.Services.Repayment
import GameClub.Services.Retry
import GameClub.Services.Search
import GameClub.Services.Settings
import GameClub.Services.Status
import GameClub.Services.Uniqueness
import GameClub.Services.Updates
import GameClub.Sessions.Exclusive
import GameClub.Sessions.Extensions
import GameClub.Sessions.Intervals
import GameClub.Sessions.Quotes
import GameClub.Sessions.Settlement
import GameClub.Sessions.Terminal
import GameClub.Analytics.Staleness
