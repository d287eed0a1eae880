/-
`app/routers/diagnostics.py`: the forward, web and email intakes.  A request is
one step of the service: it may spend a slot of the rate limiter and create or
bump a ticket, and it is answered or refused.
-/
import NetplexSupport.Routers.Licensing
import NetplexSupport.Routers.Tickets
import NetplexSupport.Transition.Runs

namespace NetplexSupport

open Py

/-! ### Gates -/

/-- `_require_forward_auth`. -/
def requireForwardAuth (settings : Settings) (request : Request) : Except Failure Unit :=
  bearerGate request settings.forwardIntakeTokens
    "forward intake is not configured on this server" "invalid or missing intake token"

/-- `_require_email_auth`. -/
def requireEmailAuth (settings : Settings) (request : Request) : Except Failure Unit :=
  bearerGate request settings.emailIntakeSecrets
    "email intake is not configured on this server" "invalid or missing intake token"

/-! ### Reports -/

structure ForwardedReport where
  kind : Str := "crash"
  fingerprint : Option Str := none
  title : Str
  body : Str := ""
  severity : Str := "s2_broken"
  platformVersion : Str := ""
  reporterTier : Str := "associate"
  installId : Option Str := none
  originLocalId : Option Str := none
  licenseToken : Option Str := none
  contact : Option Str := none
  attachmentRefs : List Str := []
  diagnosticBundle : Option Str := none

/-- At most `n` characters, when there is a text. -/
def textWithin (text : Option Str) (n : Nat) : Prop := (text.getD []).length ≤ n

instance (text : Option Str) (n : Nat) : Decidable (textWithin text n) := by
  unfold textWithin
  infer_instance

/-- The limits the fields of a forwarded report declare. -/
structure ForwardedReport.Valid (report : ForwardedReport) : Prop where
  kind : report.kind ∈ ([("crash" : Str), "bug", "feature", "license"] : List Str)
  fingerprint : textWithin report.fingerprint 128
  title : report.title.length ≤ 200
  body : report.body.length ≤ 10000
  severity : report.severity.length ≤ 16
  platformVersion : report.platformVersion.length ≤ 64
  reporterTier : report.reporterTier.length ≤ 32
  installId : textWithin report.installId 128
  originLocalId : textWithin report.originLocalId 32
  licenseToken : textWithin report.licenseToken 4096
  contact : textWithin report.contact 256
  attachmentRefs : report.attachmentRefs.length ≤ 10
  diagnosticBundle : textWithin report.diagnosticBundle 200000

structure WebReport where
  kind : Str := "bug"
  fingerprint : Option Str := none
  title : Str
  body : Str := ""
  severity : Str := "s3_degraded"
  contact : Option Str := none

structure EmailReport where
  fromEmail : Str
  subject : Str := ""
  body : Str := ""

/-- `text or fallback`. -/
def orElse (text : Option Str) (fallback : Str) : Str :=
  match text with
  | some s => if s = [] then fallback else s
  | none => fallback

/-- `json.dumps(report.attachment_refs) if report.attachment_refs else None`. -/
def attachmentsJson (refs : List Str) : Option Str :=
  if refs = [] then none
  else some (@dumps FloatView FloatView.asFloat {} (.arr (refs.map .str)))

/-- What `receive_forwarded` passes to `create_or_dedupe`. -/
def forwardFields (report : ForwardedReport) (verifiedTier : Str)
    (licenseIdHash : Option Str) : Fields where
  kind := report.kind
  fingerprint := report.fingerprint
  title := report.title
  body := report.body
  severity := report.severity
  source := "forward"
  reporterTier := verifiedTier
  identified := truthy report.contact
  contact := report.contact
  installId := report.installId
  originLocalId := report.originLocalId
  licenseIdHash := licenseIdHash
  attachments := attachmentsJson report.attachmentRefs
  diagnosticJson := report.diagnosticBundle

/-- What `receive_web` passes to `create_or_dedupe`. -/
def webFields (report : WebReport) : Fields where
  kind := report.kind
  fingerprint := report.fingerprint
  title := report.title
  body := report.body
  severity := report.severity
  source := "web"
  reporterTier := "associate"
  identified := truthy report.contact
  contact := report.contact

/-- What `receive_email` passes to `create_or_dedupe`. -/
def emailFields (report : EmailReport) : Fields where
  kind := "bug"
  title := if report.subject = [] then "(no subject)" else report.subject
  body := report.body
  severity := "s3_degraded"
  source := "email"
  reporterTier := "associate"
  identified := true
  contact := some report.fromEmail

/-! ### The service -/

structure Service where
  tickets : List Ticket
  hits : Hits

/-- Everything a deployment fixes. -/
structure Deployment where
  crypto : Crypto
  ip : IpAddress
  settings : Settings

/-- What a request reads from outside while it runs: the limiter's clock, once
for each key, the second of the licence check, and the ticket's draw. -/
structure Arrival where
  request : Request
  firstTick : Int
  secondTick : Int
  unixTime : Int
  ticket : Draw

structure ForwardReply where
  ticketId : Str
  occurrences : Int
  priorityScore : Int
  kind : Str
  originLocalId : Option Str
deriving DecidableEq

structure IntakeReply where
  ticketId : Str
  occurrences : Int
deriving DecidableEq

/-- `if not rate_ok(key, limit): raise HTTPException(429, detail)`, and what
follows it. -/
def limited {α : Type} (s : Service) (key : Str) (limit now : Int) (detail : Str)
    (next : Service → Service × Except Failure α) : Service × Except Failure α :=
  let (ok, hits) := rateOk s.hits key limit now
  let s := { s with hits := hits }
  if ok then next s else (s, .error (.http 429 detail))

/-- The last step of every intake: file the report and answer with the
ticket. -/
def fileReport {α : Type} (s : Service) (fields : Fields) (draw : Draw)
    (reply : Ticket → α) : Service × Except Failure α :=
  match createOrDedupe s.tickets fields draw with
  | .ok (ticket, tickets) => ({ s with tickets := tickets }, .ok (reply ticket))
  | .error exc => (s, .error (.raised exc))

theorem hits_fileReport {α : Type} (s : Service) (fields : Fields) (draw : Draw)
    (reply : Ticket → α) : (fileReport s fields draw reply).1.hits = s.hits := by
  unfold fileReport
  rcases createOrDedupe s.tickets fields draw with exc | ⟨t, rows⟩
  · rfl
  · rfl

section

variable (F : Type) [PyFloat F] [Interpreter]

/-- The tier and the licence hash of a forwarded report: the floor unless its
token verifies. -/
def verifiedLicense (D : Deployment) (report : ForwardedReport) (now : Int) :
    Except Exc (Str × Option Str) :=
  match report.licenseToken with
  | none => .ok ("associate", none)
  | some token =>
      if token = [] then .ok ("associate", none)
      else do
        let trust : TrustStore F ← licenseTrustStore D.crypto D.settings
        let result ← verifyToken D.crypto token trust now
        if result.valid then
          let bytes ← encodeUtf8 token
          pure (if result.tier = [] then "associate" else result.tier,
            some (hexdigest (D.crypto.sha256 bytes)))
        else pure ("associate", none)

/-- `receive_forwarded`. -/
def receiveForwarded (D : Deployment) (s : Service) (a : Arrival)
    (report : ForwardedReport) : Service × Except Failure ForwardReply :=
  match requireForwardAuth D.settings a.request with
  | .error failure => (s, .error failure)
  | .ok () =>
      let ip := clientIp D.ip D.settings a.request
      let limit := max D.settings.intakeRatePerMin 1
      limited s ("fwd:ip:" ++ ip) limit a.firstTick
        "forward rate limit exceeded - back off" fun s =>
      limited s ("fwd:install:" ++ orElse report.installId ip) limit a.secondTick
        "forward rate limit exceeded - back off" fun s =>
      match verifiedLicense F D report a.unixTime with
      | .error exc => (s, .error (.raised exc))
      | .ok (tier, licenseIdHash) =>
          fileReport s (forwardFields report tier licenseIdHash) a.ticket fun ticket =>
            { ticketId := ticket.id, occurrences := ticket.occurrences,
              priorityScore := ticket.priorityScore, kind := ticket.kind,
              originLocalId := ticket.originLocalId }

end

/-- An intake with one key for the rate limiter. -/
def receiveLimited (D : Deployment) (s : Service) (a : Arrival) (keyPrefix : Str)
    (fields : Fields) : Service × Except Failure IntakeReply :=
  let ip := clientIp D.ip D.settings a.request
  let limit := max D.settings.webIntakeRatePerMin 1
  limited s (keyPrefix ++ ip) limit a.firstTick "rate limit exceeded - slow down" fun s =>
  fileReport s fields a.ticket fun ticket =>
    { ticketId := ticket.id, occurrences := ticket.occurrences }

/-- `receive_web`. -/
def receiveWeb (D : Deployment) (s : Service) (a : Arrival) (report : WebReport) :
    Service × Except Failure IntakeReply :=
  receiveLimited D s a "web:" (webFields report)

/-- `receive_email`. -/
def receiveEmail (D : Deployment) (s : Service) (a : Arrival) (report : EmailReport) :
    Service × Except Failure IntakeReply :=
  match requireEmailAuth D.settings a.request with
  | .error failure => (s, .error failure)
  | .ok () => receiveLimited D s a "email:" (emailFields report)

/-! ### Steps -/

inductive Report where
  | forward (report : ForwardedReport)
  | web (report : WebReport)
  | email (report : EmailReport)

structure Intake where
  arrival : Arrival
  report : Report

/-- A request to `/diagnostics/forward`. -/
structure Forward where
  arrival : Arrival
  report : ForwardedReport

inductive Reply where
  | forward (reply : ForwardReply)
  | intake (reply : IntakeReply)
deriving DecidableEq

section

variable (F : Type) [PyFloat F] [Interpreter]

/-- One forward request. -/
def serveForward (D : Deployment) (s : Service) (e : Forward) :
    Service × Except Failure ForwardReply :=
  receiveForwarded F D s e.arrival e.report

/-- One request. -/
def serve (D : Deployment) (s : Service) (e : Intake) : Service × Except Failure Reply :=
  match e.report with
  | .forward report =>
      let r := receiveForwarded F D s e.arrival report
      (r.1, r.2.map .forward)
  | .web report =>
      let r := receiveWeb D s e.arrival report
      (r.1, r.2.map .intake)
  | .email report =>
      let r := receiveEmail D s e.arrival report
      (r.1, r.2.map .intake)

end

end NetplexSupport
