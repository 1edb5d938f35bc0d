import HealthRelay.Failure
import HealthRelay.Http.Exchange
import HealthRelay.Json.Record
import HealthRelay.Progress
import HealthRelay.Sample

/-!
# Health checks

The request that asks an inference server for its health, and what its answer means: 200 and 503
carry a status document, 401 is a status of its own, and anything else is a failure.
-/

namespace HealthRelay

open Http

/-- A probe of one server, with its credentials. -/
structure HealthCheck where
  address : Address
  /-- The value of the authorization header. -/
  authorization : Option String
deriving DecidableEq, Repr

namespace HealthCheck

def path : String := "/health"

def unauthorizedStatus : String := "unauthorized"

def unavailableStatus : String := "unavailable"

def bearer (key : String) : String := "Bearer " ++ key

/-- The check of a server; the api key must be fit for a header. -/
def make (address : Address) : Option String → Except ConfigError HealthCheck
  | none => .ok ⟨address, none⟩
  | some key =>
    if Header.isValue (bearer key) then .ok ⟨address, some (bearer key)⟩
    else .error .invalidApiKey

def request (check : HealthCheck) : Except RequestError Request := do
  let r ← Request.start .get check.address path
  let r ← r.withHeader "accept" "application/json"
  match check.authorization with
  | some value => r.withHeader "authorization" value
  | none => .ok r

/-- A server's status document. -/
structure Body where
  status : String
  slotsIdle : Option UInt32
  slotsProcessing : Option UInt32
deriving DecidableEq, Repr

namespace Body

open Json

structure Draft where
  status : Option String := none
  slotsIdle : Option (Option UInt32) := none
  slotsProcessing : Option (Option UInt32) := none
deriving DecidableEq, Repr

def fields : List (FieldReader Draft) :=
  [{ key := "status", isGiven := (·.status.isSome), mayBeCut := false,
     read := fun bs => (readText bs).map fun (v, rest) =>
       (fun d => { d with status := some v }, rest) },
   { key := "slots_idle", isGiven := (·.slotsIdle.isSome), mayBeCut := true,
     read := fun bs => (readOptional readCount bs).map fun (v, rest) =>
       (fun d => { d with slotsIdle := some v }, rest) },
   { key := "slots_processing", isGiven := (·.slotsProcessing.isSome), mayBeCut := true,
     read := fun bs => (readOptional readCount bs).map fun (v, rest) =>
       (fun d => { d with slotsProcessing := some v }, rest) }]

/-- The status document of a draft; slot counts may be missing. -/
def Draft.finish (d : Draft) : Except Json.Error Body := do
  let status ← required "status" d.status
  .ok {
    status
    slotsIdle := d.slotsIdle.getD none
    slotsProcessing := d.slotsProcessing.getD none }

def shape : Shape Draft Body :=
  { name := "HealthBody", fields, blank := {}, finish := Draft.finish }

def ofJson? (bs : List UInt8) : Except Json.Error Body :=
  readDocument shape.read bs

def sample (b : Body) (ms : UInt64) : Sample :=
  (Sample.observed b.status ms).withSlots b.slotsIdle b.slotsProcessing

end Body

/-- A check that did not give a sample. -/
inductive Refusal where
  | request (cause : RequestError)
  | transport (cause : TransportError)
  | malformedBody (cause : Json.Error)
  | unexpectedStatus (status : Status)
deriving DecidableEq, Repr

def Refusal.reason : Refusal → String
  | .request cause => cause.message
  | .transport cause => cause.message
  | .malformedBody cause => "malformed health body: " ++ cause.message
  | .unexpectedStatus status => "unexpected response status " ++ status.text

/-- What a response means, seen at a time. -/
def classify (response : Response) (ms : UInt64) : Except Refusal Sample :=
  if response.status = .ok then
    match Body.ofJson? response.body with
    | .ok body => .ok (body.sample ms)
    | .error cause => .error (.malformedBody cause)
  else if response.status = .unavailable then
    match Body.ofJson? response.body with
    | .ok body => .ok (body.sample ms)
    | .error _ => .ok (.observed unavailableStatus ms)
  else if response.status = .unauthorized then .ok (.observed unauthorizedStatus ms)
  else .error (.unexpectedStatus response.status)

/-- The outcome of a check whose exchange has ended, seen at a time. -/
def judge (exchange : Exchange) (ms : UInt64) : Except Failure Sample :=
  match exchange with
  | .error cause => .error (.probe (Refusal.transport cause).reason)
  | .ok response =>
    match classify response ms with
    | .ok sample => .ok sample
    | .error refusal => .error (.probe refusal.reason)

/-- The check's request, or the failure of a probe that cannot be sent. -/
def prepare (check : HealthCheck) : Except Failure Request :=
  match check.request with
  | .ok r => .ok r
  | .error cause => .error (.probe (Refusal.request cause).reason)

/-- What a probe answers, given how far its exchange has come. A request that cannot be built is not
sent. -/
def answer (check : HealthCheck) (exchange : Progress Exchange) (ms : UInt64) :
    Progress (Ending Sample) :=
  match check.prepare with
  | .error cause => .ready (.failed cause)
  | .ok _ =>
    exchange.map fun exchange =>
      match judge exchange ms with
      | .ok sample => .done sample
      | .error cause => .failed cause

end HealthCheck

end HealthRelay
