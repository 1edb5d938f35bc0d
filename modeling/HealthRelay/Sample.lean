/-!
# Health samples

One observation of the inference server, relayed unchanged from the probe to the management plane.
-/

namespace HealthRelay

/-- A snapshot of the server's health. Nothing between probe and report looks at `status`. -/
structure Sample where
  /-- The status as the server gave it. -/
  status : String
  slotsIdle : Option UInt32
  slotsProcessing : Option UInt32
  /-- Set when the probe itself failed. -/
  error : Option String
  /-- When the observation was made, in milliseconds since the epoch. -/
  observedAtMs : UInt64
deriving DecidableEq, Repr

namespace Sample

def errorStatus : String := "error"

/-- A sample with a status and nothing else. -/
def observed (status : String) (ms : UInt64) : Sample :=
  { status, slotsIdle := none, slotsProcessing := none, error := none, observedAtMs := ms }

def failed (reason : String) (ms : UInt64) : Sample :=
  { observed errorStatus ms with error := some reason }

def withSlots (s : Sample) (idle processing : Option UInt32) : Sample :=
  { s with slotsIdle := idle, slotsProcessing := processing }

def isFailed (s : Sample) : Bool := s.error.isSome

end Sample

end HealthRelay
