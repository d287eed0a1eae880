/-
`app/main.py`: the limit on request bodies.  The application reads the messages
of a request through a wrapper that counts the bytes as they come in.
-/
import NetplexSupport.Routers.Attachments

namespace NetplexSupport

open Py

/-- A message of the server to the application. -/
structure Message where
  type : Str
  body : Option Bytes := none
  moreBody : Option Bool := none
deriving DecidableEq

/-- What the middleware reads of a connection's scope. -/
structure Scope where
  type : Str := "http"
  path : Option Str := none
  headers : List (Bytes × Bytes) := []

/-- ASCII whitespace. -/
def isAsciiSpace (c : CodePoint) : Bool := (9 ≤ c.val && c.val ≤ 13) || c.val = 0x20

/-- The digits of an `int()` argument, of which the interpreter takes 4300. -/
def limitedDigits (s : Str) : Option Nat :=
  ((@intDigits Interpreter.ascii s).filter fun ds => ds.length ≤ 4300).map ofDigits

/-- `int(value)` of `bytes`; `none` is a `ValueError`. -/
def intOfBytes (value : Bytes) : Option Int :=
  let body := ((decodeLatin1 value).dropWhile isAsciiSpace).rdropWhile isAsciiSpace
  match body with
  | c :: rest =>
      if c = ch '-' then (limitedDigits rest).map fun n => -(n : Int)
      else if c = ch '+' then (limitedDigits rest).map Int.ofNat
      else (limitedDigits body).map Int.ofNat
  | [] => none

/-- `dict(headers).get(name)`: of a repeated header the last one counts. -/
def Scope.header (scope : Scope) (name : Bytes) : Option Bytes :=
  (scope.headers.reverse.find? fun h => h.1 = name).map Prod.snd

/-- `b"content-length"`. -/
def contentLengthName : Bytes :=
  (Str.ofString "content-length").map fun c => UInt8.ofNat c.val

/-- `_cap_for_path`. -/
def capForPath (settings : Settings) (path : Str) : Int :=
  if path = ATTACHMENT_ROUTE_PATH then settings.maxBlobBytes * 2
  else settings.maxRequestBodyBytes

/-- The messages still to come, and `total`. -/
structure Receiver where
  pending : List Message
  total : Nat := 0

def Message.isRequest (m : Message) : Bool := m.type = Str.ofString "http.request"

/-- `len(message.get("body") or b"")`. -/
def Message.bodyLength (m : Message) : Nat := (m.body.getD []).length

/-- `HTTPException(status_code=413, …)`. -/
def tooLarge : Failure := .http 413 "request body too large"

/-- `limited_receive`: one call, which waits when no message is left. -/
def limitedReceive (cap : Int) (r : Receiver) : Option (Except Failure Message) × Receiver :=
  match r.pending with
  | [] => (none, r)
  | message :: pending =>
      if message.isRequest then
        let total := r.total + message.bodyLength
        if cap < total then (some (.error tooLarge), ⟨pending, total⟩)
        else (some (.ok message), ⟨pending, total⟩)
      else (some (.ok message), ⟨pending, r.total⟩)

/-- The outcomes of the application's calls, until one waits. -/
def receiveCalls (cap : Int) : Nat → Receiver → List (Except Failure Message) × Receiver
  | 0, r => ([], r)
  | calls + 1, r =>
      match limitedReceive cap r with
      | (none, r) => ([], r)
      | (some outcome, r) =>
          let rest := receiveCalls cap calls r
          (outcome :: rest.1, rest.2)

/-- How a connection is served: the middleware's own answer, the outcomes of the
application's calls, and the messages nobody read. -/
structure Served where
  answer : Option (Nat × Str)
  outcomes : List (Except Failure Message)
  unread : List Message

/-- `__call__`, with an application that calls `receive` a number of times. -/
def bodySizeLimit (settings : Settings) (scope : Scope) (messages : List Message)
    (calls : Nat) : Served :=
  if scope.type ≠ Str.ofString "http" then
    ⟨none, (messages.take calls).map .ok, messages.drop calls⟩
  else
    let cap := capForPath settings (scope.path.getD [])
    let served := receiveCalls cap calls ⟨messages, 0⟩
    match scope.header contentLengthName with
    | none => ⟨none, served.1, served.2.pending⟩
    | some cl =>
        match intOfBytes cl with
        | none => ⟨some (400, "invalid Content-Length"), [], messages⟩
        | some length =>
            if cap < length then ⟨some (413, "request body too large"), [], messages⟩
            else ⟨none, served.1, served.2.pending⟩

end NetplexSupport
