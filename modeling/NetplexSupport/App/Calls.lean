/-
The application of `app/main.py`: one process with its settings and its limiter,
over one database, answering one call after another.  A call is a request that
the router handed to a handler, its body parsed; a restart reads the settings
again and forgets the limiter's table, which lives in the process.
-/
import NetplexSupport.Routers.Attachments
import NetplexSupport.Routers.Releases

namespace NetplexSupport

open Py

/-- The libraries of the process and the database behind it. -/
structure Host where
  crypto : Crypto
  ip : IpAddress
  backend : Backend

/-- The process and the three tables. -/
structure App where
  settings : Settings
  service : Service
  releases : List ReleaseManifest
  licenses : List LicenseToken

def Host.deploy (host : Host) (settings : Settings) : Deployment :=
  ⟨host.crypto, host.ip, settings⟩

/-- A process that was just started over an empty database. -/
def App.fresh (settings : Settings) : App := ⟨settings, ⟨[], fun _ => []⟩, [], []⟩

inductive Call (F : Type) where
  | restart (settings : Settings)
  | intake (e : Intake)
  | attachment (request : Request) (upload : AttachmentUpload)
  | queue (request : Request) (limit : Nat)
  | byOrigin (request : Request) (originLocalId : Str)
  | claim (claimCode : Str)
  | ticket (ticketId : Str)
  | diagnostic (request : Request) (ticketId : Str)
  | verify (request : Request) (token : Str) (tick now : Int)
  | issue
  | register (request : Request) (token : Str) (now : Int) (draw : RowDraw)
  | registered (request : Request) (customerRef : Str)
  | manifest (channel : Str)
  | upload (request : Request) (body : UploadRequest F) (draw : RowDraw)
  | publish

/-- A restart reads the settings again. -/
def Call.isRestart {F : Type} : Call F → Bool
  | .restart _ => true
  | _ => false

inductive Answer (F : Type) where
  | started
  | filed (reply : Reply)
  | stored (descriptor : Descriptor)
  | queue (count : Nat) (tickets : List TicketView)
  | ticket (view : TicketView)
  | diagnostic (view : DiagnosticView F)
  | verified (result : VerifyResult F)
  | registered (result : RegisterResult)
  | license (view : RegisteredView)
  | manifest (value : Json F)
  | uploaded (result : UploadResult)

/-- `claim_lookup`, which knows no codes. -/
def claimLookup {α : Type} (_claimCode : Str) : Except Failure α :=
  .error (.http 404 "no ticket for that claim code")

/-- `issue_license`. -/
def issueLicense {α : Type} : Except Failure α :=
  .error (.http 501 ("GATED - server-side license issuance is permanently disabled by design " ++
    "(key-custody rule). Mint a token offline via tools/mint_license.py, then POST it to " ++
    "/api/v1/license/register"))

def PUBLISH_GATED : Str :=
  "publish (server-side signing) is permanently disabled by design - this server never " ++
  "holds the private signing key (docs/SECURITY-BLOCKERS.md #3). Sign a manifest OFFLINE " ++
  "via tools/sign_release.py on the air-gapped signing machine, then POST the signed " ++
  "result to /api/v1/releases/upload"

/-- `publish_release`. -/
def publishRelease {α : Type} : Except Failure α := .error (.http 501 PUBLISH_GATED)

section

variable {F : Type} [PyFloat F] [Interpreter]

/-- A route behind the admin gate. -/
def admin {α : Type} (settings : Settings) (request : Request)
    (handler : Except Failure α) : Except Failure α := do
  requireAdmin settings request
  handler

/-- One call. -/
def App.serve (host : Host) (s : App) : Call F → App × Except Failure (Answer F)
  | .restart settings =>
      ({ s with settings := settings, service := { s.service with hits := fun _ => [] } },
        .ok .started)
  | .intake e =>
      let r := NetplexSupport.serve F (host.deploy s.settings) s.service e
      ({ s with service := r.1 }, r.2.map .filed)
  | .attachment request upload =>
      (s, (uploadAttachment host.crypto s.settings request upload).map .stored)
  | .queue request limit =>
      (s, admin s.settings request
        ((triageQueue F s.service.tickets limit).map fun page => .queue page.1 page.2))
  | .byOrigin request originLocalId =>
      (s, admin s.settings request
        ((getTicketByOriginRoute F s.service.tickets originLocalId).map .ticket))
  | .claim claimCode => (s, claimLookup claimCode)
  | .ticket ticketId => (s, (getTicketRoute F s.service.tickets ticketId).map .ticket)
  | .diagnostic request ticketId =>
      (s, admin s.settings request
        ((getTicketDiagnostic F s.service.tickets ticketId).map .diagnostic))
  | .verify request token tick now =>
      let r := verifyLicense host.crypto host.ip s.settings s.service.hits request token tick now
      ({ s with service := { s.service with hits := r.1 } }, r.2.map .verified)
  | .issue => (s, issueLicense)
  | .register request token now draw =>
      let r := orKeep s.licenses
        (postRegister F host.crypto host.backend s.settings request s.licenses token now draw)
      ({ s with licenses := r.1 }, r.2.map .registered)
  | .registered request customerRef =>
      (s, (getRegistered s.settings request s.licenses customerRef).map .license)
  | .manifest channel => (s, (getManifest s.releases channel).map .manifest)
  | .upload request body draw =>
      let r := uploadStep host.crypto host.backend s.releases ⟨s.settings, request, body, draw⟩
      ({ s with releases := r.1 }, r.2.map .uploaded)
  | .publish => (s, publishRelease)

/-- The settings are those of the last restart. -/
theorem settings_serve (host : Host) (s : App) {c : Call F} (hc : c.isRestart = false) :
    (App.serve host s c).1.settings = s.settings := by
  cases c with
  | restart settings => cases hc
  | _ => rfl

theorem settings_after (host : Host) (s : App) {calls : List (Call F)}
    (hcalls : ∀ c ∈ calls, c.isRestart = false) :
    (Transition.after (App.serve host) s calls).settings = s.settings := by
  induction calls generalizing s with
  | nil => rfl
  | cons c calls ih =>
      rw [List.forall_mem_cons] at hcalls
      rw [Transition.after_cons, ih _ hcalls.2, settings_serve host s hcalls.1]

end

end NetplexSupport
