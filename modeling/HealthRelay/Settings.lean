/-!
# Settings

The texts that a configuration file or the command line may give. Layers of settings are laid over
each other, the later one winning wherever it says something.
-/

namespace HealthRelay

structure AgentSettings where
  name : Option String := none
  reportingInterval : Option String := none
deriving DecidableEq, Repr

structure ServerSettings where
  localAddr : Option String := none
  externalAddr : Option String := none
  apiKey : Option String := none
deriving DecidableEq, Repr

structure ManagementSettings where
  addr : Option String := none
deriving DecidableEq, Repr

structure Settings where
  agent : AgentSettings := {}
  server : ServerSettings := {}
  management : ManagementSettings := {}
deriving DecidableEq, Repr

namespace Settings

/-- The settings with another layer on top, which wins wherever it gives a value. -/
def overlay (base top : Settings) : Settings where
  agent := {
    name := top.agent.name.or base.agent.name
    reportingInterval := top.agent.reportingInterval.or base.agent.reportingInterval }
  server := {
    localAddr := top.server.localAddr.or base.server.localAddr
    externalAddr := top.server.externalAddr.or base.server.externalAddr
    apiKey := top.server.apiKey.or base.server.apiKey }
  management := { addr := top.management.addr.or base.management.addr }

end Settings

end HealthRelay
