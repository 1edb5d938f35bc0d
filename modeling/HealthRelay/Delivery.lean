import HealthRelay.Failure
import HealthRelay.Http.Exchange
import HealthRelay.Progress
import HealthRelay.Report.Json

/-!
# Deliveries

The request that posts a report to the management plane, and what its answer means: any status of
success will do, and everything else is a failure.
-/

namespace HealthRelay

open Http

structure ManagementClient where
  address : Address
deriving DecidableEq, Repr

namespace ManagementClient

def deliveryFailed : String := "failed to report health status"

def request (client : ManagementClient) (report : Report) : Except RequestError Request := do
  let r ← Request.start .post client.address report.sessionId.statusUpdatePath
  let r ← r.withHeader "content-type" "application/json"
  .ok { r with body := Text.Utf8.encode report.jsonChars }

/-- The client's request, or the failure of a delivery that cannot be sent. -/
def prepare (client : ManagementClient) (report : Report) : Except Failure Request :=
  match client.request report with
  | .ok r => .ok r
  | .error cause => .error (.delivery cause.message)

def judge : Exchange → Except Failure Unit
  | .error cause => .error (.delivery cause.message)
  | .ok response =>
    if response.status.isSuccess then .ok ()
    else .error (.delivery ("management server returned " ++ response.status.text))

/-- What a delivery answers, given how far its exchange has come. A request that cannot be built is
not sent. -/
def answer (client : ManagementClient) (report : Report) (exchange : Progress Exchange) :
    Progress (Except Failure Unit) :=
  match client.prepare report with
  | .error cause => .ready (.error cause)
  | .ok _ => exchange.map judge

end ManagementClient

end HealthRelay
