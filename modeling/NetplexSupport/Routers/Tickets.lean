/-
`app/routers/tickets.py`: the public view of a ticket, the admin queue and the
admin detail endpoint.
-/
import NetplexSupport.Auth
import NetplexSupport.Json.Limits
import NetplexSupport.Models.Tickets

namespace NetplexSupport

open Py

structure TicketView where
  id : Str
  kind : Str
  status : Str
  severity : Str
  title : Str
  occurrences : Int := 1
  reporterTier : Str := "associate"
  priorityScore : Option Int := none
  fixedInVersion : Option Str := none
  source : Str := "web"
  originLocalId : Option Str := none
  hasDiagnosticBundle : Bool := false
  attachmentRefs : List Str := []
deriving DecidableEq

/-- `bool(text)` of an optional string. -/
def truthy (text : Option Str) : Bool := text.any fun s => s ≠ []

/-- A `list[str]` field of a model. -/
def listOfStr {F : Type} : Json F → Except Exc (List Str)
  | .arr xs => xs.mapM fun x =>
      match x with
      | .str s => .ok s
      | _ => .error ⟨.valueError, "Input should be a valid string"⟩
  | _ => .error ⟨.valueError, "Input should be a valid list"⟩

section

variable (F : Type) [PyFloat F] [Interpreter]

/-- The value of `attachments`: an empty list when there is none, or when it is
not JSON. -/
def Ticket.attachmentRefs (t : Ticket) : Except Exc (Json F) :=
  match t.attachments with
  | none => .ok (.arr [])
  | some text =>
      if text = [] then .ok (.arr []) else (tryLoads text).map fun j => j.getD (.arr [])

/-- `TicketView.of`. -/
def TicketView.of (t : Ticket) : Except Exc TicketView := do
  let refs ← listOfStr (← t.attachmentRefs F)
  pure
    { id := t.id, kind := t.kind, status := t.status, severity := t.severity,
      title := t.title, occurrences := t.occurrences, reporterTier := t.reporterTier,
      priorityScore := some t.priorityScore, fixedInVersion := t.fixedInVersion,
      source := t.source, originLocalId := t.originLocalId,
      hasDiagnosticBundle := truthy t.diagnosticJson, attachmentRefs := refs }

/-- `triage_queue`, behind the admin gate: the count and the tickets. -/
def triageQueue (tickets : List Ticket) (limit : Nat) :
    Except Failure (Nat × List TicketView) := do
  let rows := adminQueue tickets limit
  let views ← raising (rows.mapM (TicketView.of F))
  pure (rows.length, views)

/-- `get_ticket_by_origin_route`, behind the admin gate. -/
def getTicketByOriginRoute (tickets : List Ticket) (originLocalId : Str) :
    Except Failure TicketView :=
  match getTicketByOriginLocalId tickets originLocalId with
  | none => .error (.http 404 "no ticket for that origin_local_id")
  | some t => raising (TicketView.of F t)

/-- `get_ticket_route`. -/
def getTicketRoute (tickets : List Ticket) (ticketId : Str) : Except Failure TicketView :=
  match getTicket tickets ticketId with
  | none => .error (.http 404 "ticket not found")
  | some t => raising (TicketView.of F t)

/-- The value of `diagnostic_json`: the text itself when it is not JSON. -/
def Ticket.diagnosticBundle (t : Ticket) : Except Exc (Json F) :=
  match t.diagnosticJson with
  | none => .ok .null
  | some text => if text = [] then .ok .null else (tryLoads text).map fun j => j.getD (.str text)

structure DiagnosticView where
  id : Str
  diagnosticBundle : Json F
  attachmentRefs : Json F

/-- `get_ticket_diagnostic`, behind the admin gate. -/
def getTicketDiagnostic (tickets : List Ticket) (ticketId : Str) :
    Except Failure (DiagnosticView F) :=
  match getTicket tickets ticketId with
  | none => .error (.http 404 "ticket not found")
  | some t => raising do
      let bundle ← t.diagnosticBundle F
      let refs ← t.attachmentRefs F
      pure ⟨t.id, bundle, refs⟩

end

end NetplexSupport
