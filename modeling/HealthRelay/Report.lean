import HealthRelay.Address
import HealthRelay.Sample
import HealthRelay.SessionId

/-!
# Status reports

What is posted to the management plane for every sample.
-/

namespace HealthRelay

/-- A sample with the session it belongs to and the address to advertise. -/
structure Report where
  agentName : Option String
  sessionId : SessionId
  externalAddr : Address
  sample : Sample
deriving DecidableEq, Repr

end HealthRelay
