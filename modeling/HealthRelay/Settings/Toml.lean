import HealthRelay.ConfigError
import HealthRelay.Settings
import HealthRelay.Text.Utf8
import HealthRelay.Toml.Document
import HealthRelay.Toml.Writer

/-!
# Settings in TOML

A file of settings has the sections `agent`, `llamacpp` and `management`. Keys and sections that are
not known are left alone. A section may be written as a table, or as a list of all its values.
-/

namespace HealthRelay.Settings

open Toml

/-- The text of a key, if it is there; it must be a text. -/
def textOf? (rows : Rows) (key : String) : Option (Option String) :=
  match rows.get? key with
  | none => some none
  | some (.text s) => some (some s)
  | some _ => none

/-- The text of a list's element. -/
def elementOf? : Item → Option String
  | .text s => some s
  | _ => none

/-- A section as a table of its keys, or as a list that holds them all in order. -/
def section? {α : Type} (count : Nat) (ofTexts : List (Option String) → Option α)
    (keys : List String) (item : Option Item) : Option α :=
  match item with
  | none => ofTexts (keys.map fun _ => none)
  | some (.table _ rows) => (keys.mapM (textOf? rows)).bind ofTexts
  | some (.scalar .date) => ofTexts (keys.map fun _ => none)
  | some (.list items) =>
    if items.length < count then none
    else ((items.take count).mapM elementOf?).bind fun texts => ofTexts (texts.map some)
  | some _ => none

def agentOf? : List (Option String) → Option AgentSettings
  | [name, reportingInterval] => some { name, reportingInterval }
  | _ => none

def serverOf? : List (Option String) → Option ServerSettings
  | [localAddr, externalAddr, apiKey] => some { localAddr, externalAddr, apiKey }
  | _ => none

def managementOf? : List (Option String) → Option ManagementSettings
  | [addr] => some { addr }
  | _ => none

def ofRows? (rows : Rows) : Option Settings := do
  let agent ← section? 2 agentOf? ["name", "reporting_interval"] (rows.get? "agent")
  let server ← section? 3 serverOf? ["local_addr", "external_addr", "api_key"]
    (rows.get? "llamacpp")
  let management ← section? 1 managementOf? ["addr"] (rows.get? "management")
  some { agent, server, management }

def ofToml? (cs : List Char) : Except ConfigError Settings :=
  match (readDocument cs).bind ofRows? with
  | some s => .ok s
  | none => .error .malformed

/-- The settings of a file, from its bytes or from the reason why there are none. -/
def ofFile? (path : String) (contents : Except FileFault (List UInt8)) :
    Except ConfigError Settings :=
  match contents with
  | .error fault => .error (.unreadable path fault)
  | .ok bytes =>
    match Text.Utf8.decode? bytes with
    | some cs => ofToml? cs
    | none => .error (.unreadable path .notUtf8)

/-- The characters of a file with these settings. -/
def tomlChars (s : Settings) : List Char :=
  writeHeader "agent" ++ writeOptionalLine "name" s.agent.name ++
    writeOptionalLine "reporting_interval" s.agent.reportingInterval ++
    '\n' :: writeHeader "llamacpp" ++ writeOptionalLine "local_addr" s.server.localAddr ++
    writeOptionalLine "external_addr" s.server.externalAddr ++
    writeOptionalLine "api_key" s.server.apiKey ++
    '\n' :: writeHeader "management" ++ writeOptionalLine "addr" s.management.addr

def toml (s : Settings) : String :=
  String.ofList s.tomlChars

end HealthRelay.Settings
