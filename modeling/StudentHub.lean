import StudentHub.Assertions.Replay
import StudentHub.Authz.Batches
import StudentHub.Authz.PostgresAgreement
import StudentHub.Authz.Revocation
import StudentHub.Authz.Selection
import StudentHub.Capacity.Batches
import StudentHub.Capacity.Money
import StudentHub.Capacity.Readback
import StudentHub.CardInstall.Lanes
import StudentHub.CardRepair.LineTail
import StudentHub.CardRepair.OpenPulls
import StudentHub.CardRun.SelectLock
import StudentHub.Coordinator.Attempts
import StudentHub.Coordinator.Directives
import StudentHub.Coordinator.Findings
import StudentHub.Coordinator.Lineage
import StudentHub.Coordinator.ReviewChange
import StudentHub.Dangling.Disputed
import StudentHub.Documents.Content
import StudentHub.Exports.Csv
import StudentHub.Idempotency.Guarantees
import StudentHub.Incidents.Bounded
import StudentHub.Jobs.Overtaken
import StudentHub.Landing.Takeovers
import StudentHub.Login.Locked
import StudentHub.Notifications.Guarantees
import StudentHub.Notifications.Inbox
import StudentHub.Notifications.Permanence
import StudentHub.Organizations.Deletions
import StudentHub.Organizations.SubOrganizations
import StudentHub.Pay.Audited
import StudentHub.Pay.BankWrite
import StudentHub.Pay.ContractValues
import StudentHub.Pay.Iban
import StudentHub.Pay.IbanSlips
import StudentHub.Pay.LifeCycle
import StudentHub.Profile.Committed
import StudentHub.Profile.SelfEdit
import StudentHub.PushBroker.Exact
import StudentHub.Reseed.Manifest
import StudentHub.SafeWrite.BrowserTokens
import StudentHub.SafeWrite.Guarantees
import StudentHub.Search.Aliased
import StudentHub.Search.Candidates
import StudentHub.Sources.Latest
import StudentHub.Sources.Shuffled
import StudentHub.Supervisor.Attended
