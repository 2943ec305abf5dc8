import ResourceHive.Points.Balance
import ResourceHive.Bookings.Conservation
import ResourceHive.Bookings.SlotConsistency
import ResourceHive.Bookings.Lifecycle
import ResourceHive.Bookings.Retry
import ResourceHive.Bookings.Reevaluation
import ResourceHive.Bookings.Batch
import ResourceHive.Organizations.SemesterPoints
import ResourceHive.Organizations.Administrators
import ResourceHive.Organizations.Forest
import ResourceHive.Organizations.Admission
import ResourceHive.Organizations.RoleChanges
import ResourceHive.Organizations.PaidOnce
import ResourceHive.Sessions.Families
import ResourceHive.Sessions.Revocation
import ResourceHive.Sessions.Rotation
import ResourceHive.Sessions.PasswordReset
import ResourceHive.Sessions.Redirects
import ResourceHive.Sessions.ResetTokens
import ResourceHive.Sessions.Switching
import ResourceHive.Resources.Holds
import ResourceHive.Resources.Withdrawal
import ResourceHive.Disputes.Notes
import ResourceHive.Sessions.GoogleConnect
import ResourceHive.Notifications.Producers
import ResourceHive.Notifications.Decisions
import ResourceHive.Notifications.RetryBudget
import ResourceHive.Notifications.TenantIsolation
import ResourceHive.Notifications.ExactlyOnce
import ResourceHive.Organizations.AllocatePointsDialog
import ResourceHive.Organizations.SemesterRecipients
import ResourceHive.Bookings.Slots
import ResourceHive.Bookings.Changes
import ResourceHive.Bookings.BookingLists
import ResourceHive.Disputes.Restore
import ResourceHive.Machinery.RowSecurity
import ResourceHive.Machinery.Ownership
import ResourceHive.Universities.Policies
import ResourceHive.Universities.Isolation
import ResourceHive.Universities.Context
import ResourceHive.Sessions.SessionClient
import ResourceHive.Sessions.EmailVerification
import ResourceHive.Bookings.Timetable
import ResourceHive.Resources.Catalogue
import ResourceHive.Notifications.Browsers
import ResourceHive.Universities.Backfill
import ResourceHive.Bookings.Reports
