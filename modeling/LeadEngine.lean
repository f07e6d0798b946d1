import LeadEngine.TransitionSystem
import LeadEngine.Precedence
import LeadEngine.Table
import LeadEngine.Dict
import LeadEngine.UnitOfWork
import LeadEngine.Calls
import LeadEngine.Pattern
import LeadEngine.Tiling
import LeadEngine.SingleEntry
import LeadEngine.CheckSum
import LeadEngine.ByteText
import LeadEngine.FormText
import LeadEngine.CsvText
import LeadEngine.TtlCache
import LeadEngine.Lockstep
import LeadEngine.Substitution
import LeadEngine.JsonText
import LeadEngine.Interpreter
import LeadEngine.Words
import LeadEngine.Schema
import LeadEngine.Repository
import LeadEngine.Deduplicator
import LeadEngine.TwoStageFilter
import LeadEngine.Pipeline
import LeadEngine.Erasure
import LeadEngine.Retention
import LeadEngine.DataPolicy
import LeadEngine.Normaliser
import LeadEngine.FileUpload
import LeadEngine.Channels
import LeadEngine.LeadAds
import LeadEngine.OAuth
import LeadEngine.TokenRefresh
import LeadEngine.RefreshRuns
import LeadEngine.TokenExpiry
import LeadEngine.Routing
import LeadEngine.RefreshLiveness
import LeadEngine.Vault
import LeadEngine.PageTokens
import LeadEngine.Operations
import LeadEngine.Change
import LeadEngine.History
import LeadEngine.Ledger
import LeadEngine.Admission
import LeadEngine.Announcement
import LeadEngine.Unlinked
import LeadEngine.ErasureScope
import LeadEngine.Concurrency
import LeadEngine.Workload
import LeadEngine.Undisturbed
import LeadEngine.Serialisable
import LeadEngine.ErasureRace
import LeadEngine.UploadRun
import LeadEngine.BatchSession
import LeadEngine.RowOutcome
import LeadEngine.Minimisation
import LeadEngine.CardScan
import LeadEngine.Luhn
import LeadEngine.Reupload
import LeadEngine.BatchRestart
import LeadEngine.UuidText
import LeadEngine.RowIdentity
import LeadEngine.CsvUpload
import LeadEngine.CsvFile
import LeadEngine.UploadedCells
import LeadEngine.UploadPaths
import LeadEngine.MessageRoute
import LeadEngine.Redelivery
import LeadEngine.Permanence
import LeadEngine.RetentionRuns
import LeadEngine.SweepTwice
import LeadEngine.AuditTrail
import LeadEngine.Deployment
import LeadEngine.Recognition
import LeadEngine.PhoneIdentity
import LeadEngine.PhoneForm
import LeadEngine.Isolation
import LeadEngine.TenantView
import LeadEngine.TenantConfig
import LeadEngine.ConfigRegistry
import LeadEngine.ConfigHistory
import LeadEngine.ConfigRuns
import LeadEngine.ConfigLog
import LeadEngine.PreFlight
import LeadEngine.FilterContract
import LeadEngine.Website
import LeadEngine.WebsiteText
import LeadEngine.Onboarding
import LeadEngine.OnboardingRuns
import LeadEngine.OnboardingOverlap
import LeadEngine.Accounts
import LeadEngine.Logins
import LeadEngine.LoginRuns
import LeadEngine.OnboardingRequests
import LeadEngine.OnboardedOnce
import LeadEngine.Agreement
import LeadEngine.OAuthState
import LeadEngine.StateToken
import LeadEngine.StateFormat
import LeadEngine.OAuthDesk
import LeadEngine.OAuthRuns
import LeadEngine.ConsentUrl
import LeadEngine.ConnectFailure
import LeadEngine.OAuthSession
import LeadEngine.AccessToken
import LeadEngine.Access
import LeadEngine.JsonPath
import LeadEngine.Webhook
import LeadEngine.WebhookPayload
import LeadEngine.WebhookRouting
import LeadEngine.WebhookFanOut
import LeadEngine.WebhookAudit
import LeadEngine.LeadAdAnswers
import LeadEngine.LocationOrder
import LeadEngine.EventKeys
import LeadEngine.WebhookOutcome
import LeadEngine.Deliveries
