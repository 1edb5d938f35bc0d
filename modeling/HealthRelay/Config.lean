import HealthRelay.Address
import HealthRelay.Duration.Reader
import HealthRelay.Settings

/-!
# Configurations

A configuration is what settings mean once they have been checked: every address is an address, and
the interval lies between nothing and a day.
-/

namespace HealthRelay

structure Config where
  /-- The name shown with every report. -/
  name : Option String
  /-- How often to probe, and the budget of every probe and report. -/
  reportingInterval : Duration
  /-- Where the probe goes. -/
  localAddr : Address
  /-- The address told to the management plane. -/
  externalAddr : Address
  apiKey : Option String
  managementAddr : Address
deriving DecidableEq, Repr

/-- What a session needs of a configuration. -/
structure SessionConfig where
  agentName : Option String
  /-- The cadence of probes, and the budget of every call. -/
  interval : Duration
  externalAddr : Address
deriving DecidableEq, Repr

namespace Config

def defaultInterval : Duration := .ofSecs 10

def checkInterval (d : Duration) : Except ConfigError Unit :=
  if d.nanos = 0 then .error .zeroInterval
  else if maxReportingInterval < d then .error (.intervalTooLong d)
  else .ok ()

def requiredAddress (setting : String) : Option String → Except ConfigError Address
  | none => .error (.missing setting)
  | some text => Address.ofText? text

/-- The interval of the settings, or the default one. -/
def intervalOf : Option String → Except ConfigError Duration
  | none => .ok defaultInterval
  | some text => Duration.ofText? text

/-- The advertised address, which is the local one unless it is set. -/
def externalOf (localAddr : Address) : Option String → Except ConfigError Address
  | none => .ok localAddr
  | some text => Address.ofText? text

/-- Whether a name says anything. -/
def isShown (name : String) : Bool := !Text.isAllBlank name.toList

/-- The configuration that settings mean. -/
def ofSettings? (s : Settings) : Except ConfigError Config := do
  let reportingInterval ← intervalOf s.agent.reportingInterval
  let localAddr ← requiredAddress "llamacpp.local_addr" s.server.localAddr
  let externalAddr ← externalOf localAddr s.server.externalAddr
  let managementAddr ← requiredAddress "management.addr" s.management.addr
  checkInterval reportingInterval
  .ok {
    name := s.agent.name.filter isShown
    reportingInterval
    localAddr
    externalAddr
    apiKey := s.server.apiKey.filter fun key => !key.isEmpty
    managementAddr }

def session (c : Config) : SessionConfig :=
  { agentName := c.name, interval := c.reportingInterval, externalAddr := c.externalAddr }

end Config

end HealthRelay
