import NetplexSupport.Crypto.Settings
import NetplexSupport.Database.Migration
import NetplexSupport.Models.Tickets
import NetplexSupport.Tickets.Concurrent
import NetplexSupport.Licensing.Confusion
import NetplexSupport.Licensing.Minted
import NetplexSupport.Licensing.Hostile
import NetplexSupport.Tickets.Isolation
import NetplexSupport.Tickets.Origins
import NetplexSupport.Tickets.Evidence
import NetplexSupport.Tickets.Tiers
import NetplexSupport.Tickets.Identity
import NetplexSupport.Tickets.Privacy
import NetplexSupport.Access.Bearer
import NetplexSupport.Access.ClientIp
import NetplexSupport.Limits.Budgets
import NetplexSupport.Limits.Body
import NetplexSupport.Limits.Report
import NetplexSupport.Limits.Attachment
import NetplexSupport.Releases.Upload
import NetplexSupport.Tickets.Priority
import NetplexSupport.Tickets.LicenceHash
import NetplexSupport.Attribution.Scan
import NetplexSupport.Attribution.Ledger
import NetplexSupport.Attribution.Survivors
import NetplexSupport.Attribution.Verified
import NetplexSupport.Attribution.Identities
import NetplexSupport.Attribution.Notice
import NetplexSupport.Concurrency.CurrentSeats
import NetplexSupport.Concurrency.BadLines
import NetplexSupport.Python.Replace
import NetplexSupport.App.Provenance
import NetplexSupport.App.Reports
import NetplexSupport.App.Reads
import NetplexSupport.App.Budgets
import NetplexSupport.Tickets.Serializable
import NetplexSupport.App.Distribution
import NetplexSupport.App.Licences
import NetplexSupport.App.Revocation
import NetplexSupport.Attribution.Case
import NetplexSupport.Licensing.Policy
import NetplexSupport.Tools.IntegrityManifest
import NetplexSupport.Tools.RevocationList
import NetplexSupport.App.Rotation
import NetplexSupport.Attribution.Downloads
