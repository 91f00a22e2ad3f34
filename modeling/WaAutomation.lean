import WaAutomation.Library.Program
import WaAutomation.Library.Machine
import WaAutomation.Library.Rows
import WaAutomation.Library.Floating
import WaAutomation.Library.Loop
import WaAutomation.Library.Retry
import WaAutomation.Model.Schema
import WaAutomation.Model.Store
import WaAutomation.Model.Helpers
import WaAutomation.Model.Conditions
import WaAutomation.Model.Workspaces
import WaAutomation.Model.Contacts
import WaAutomation.Model.Broadcasts
import WaAutomation.Model.Webhooks
import WaAutomation.Model.Deliveries
import WaAutomation.Model.Automations
import WaAutomation.Model.Triggers
import WaAutomation.Model.Analytics
import WaAutomation.Model.Api
import WaAutomation.Model.Auth
import WaAutomation.Model.Gateway
import WaAutomation.Model.Frame
import WaAutomation.Model.Calls
import WaAutomation.Model.Services
import WaAutomation.Model.Writes
import WaAutomation.Model.Accounts
import WaAutomation.Broadcasts.System
import WaAutomation.Broadcasts.Ownership
import WaAutomation.Broadcasts.Delivery
import WaAutomation.Broadcasts.Counters
import WaAutomation.Broadcasts.Recovery
import WaAutomation.Broadcasts.Cancellation
import WaAutomation.Broadcasts.Removal
import WaAutomation.Broadcasts.Completion
import WaAutomation.Broadcasts.Progress
import WaAutomation.Broadcasts.Spacing
import WaAutomation.Tenancy.Guard
import WaAutomation.Tenancy.Views
import WaAutomation.Tenancy.Confinement
import WaAutomation.Tenancy.Isolation
import WaAutomation.Messages.Attempts
import WaAutomation.Webhooks.Delivery
import WaAutomation.Automations.StepGuard
import WaAutomation.Automations.Schedule
import WaAutomation.Automations.RunCount
import WaAutomation.Automations.Retries
import WaAutomation.Automations.Update
import WaAutomation.Auth.System
import WaAutomation.Auth.Rotation
import WaAutomation.Auth.Logout
import WaAutomation.Auth.ApiKeys
import WaAutomation.Sessions.Routing
import WaAutomation.Sessions.Rooms
import WaAutomation.Automations.Hooks
import WaAutomation.Accounts.System
import WaAutomation.Accounts.Owners
import WaAutomation.Messages.Courses
import WaAutomation.Messages.Log
import WaAutomation.Messages.Marks
import WaAutomation.Tenancy.References
import WaAutomation.Tenancy.Integrity
import WaAutomation.Messages.Origins
import WaAutomation.Messages.Senders
import WaAutomation.Automations.Straight
import WaAutomation.Contacts.RoundTrip
import WaAutomation.Contacts.Import
import WaAutomation.Contacts.Headers
import WaAutomation.Contacts.Phones
import WaAutomation.Broadcasts.Recipients
import WaAutomation.Accounts.Credentials
import WaAutomation.Automations.Order
import WaAutomation.Templates.Exact
import WaAutomation.Templates.Missing
import WaAutomation.Webhooks.Waits
import WaAutomation.Broadcasts.Chats
import WaAutomation.Automations.Bodyless
import WaAutomation.Contacts.Pages
import WaAutomation.Library.Noninterference
import WaAutomation.Tenancy.Parts
import WaAutomation.Tenancy.Locality
import WaAutomation.Tenancy.Tenants
import WaAutomation.Tenancy.Noninterference
import WaAutomation.Library.Plan
import WaAutomation.Automations.Scripts
import WaAutomation.Messages.Dispatch
import WaAutomation.Tenancy.Authority
import WaAutomation.Tenancy.Failures
import WaAutomation.Model.Http
import WaAutomation.Front.Authentication
import WaAutomation.Front.Lockout
import WaAutomation.Auth.Roots
import WaAutomation.Auth.Issuance
