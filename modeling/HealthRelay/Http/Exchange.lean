import HealthRelay.Http.Request
import HealthRelay.Http.Status

/-!
# Exchanges

How sending one request over a fresh connection can end: no connection, a broken answer, or a whole
response.
-/

namespace HealthRelay.Http

inductive WireFault where
  /-- The connection ended before a full head had come. -/
  | closedEarly
  /-- The connection ended inside the body. -/
  | bodyCut
  | invalidVersion
  | invalidStatus
  | invalidHeader
  | invalidLength
  /-- A transfer encoding in an answer of a version that has none. -/
  | unexpectedEncoding
  /-- The connection broke. -/
  | lost
deriving DecidableEq, Repr

def WireFault.message : WireFault → String
  | .closedEarly => "connection closed before message completed"
  | .bodyCut => "error reading a body from connection"
  | .invalidVersion => "invalid HTTP version parsed"
  | .invalidStatus => "invalid HTTP status-code parsed"
  | .invalidHeader => "invalid HTTP header parsed"
  | .invalidLength => "invalid content-length parsed"
  | .unexpectedEncoding => "unexpected transfer-encoding parsed"
  | .lost => "connection error"

/-- Why no response came. -/
inductive TransportError where
  /-- There was no connection, for a reason of the operating system. -/
  | noConnection (reason : String)
  | broken (fault : WireFault)
deriving DecidableEq, Repr

def TransportError.message : TransportError → String
  | .noConnection reason => "connection failed: " ++ reason
  | .broken fault => "http error: " ++ fault.message

structure Response where
  status : Status
  body : List UInt8
deriving DecidableEq, Repr

abbrev Exchange := Except TransportError Response

end HealthRelay.Http
