import HealthRelay.Address.Json
import HealthRelay.Report
import HealthRelay.Sample.Json

/-!
# Reports in JSON

A report is an object of its four fields; an absent agent name is written as `null`.
-/

namespace HealthRelay.Report

open Json

def members (r : Report) : List Member :=
  [⟨"agent_name", writeOptional r.agentName⟩,
   ⟨"session_id", writeQuoted r.sessionId.text.toList⟩,
   ⟨"external_addr", r.externalAddr.jsonChars⟩,
   ⟨"sample", r.sample.jsonChars⟩]

def jsonChars (r : Report) : List Char :=
  writeObject r.members

def json (r : Report) : String :=
  String.ofList r.jsonChars

structure Draft where
  agentName : Option (Option String) := none
  sessionId : Option String := none
  externalAddr : Option Address := none
  sample : Option Sample := none
deriving DecidableEq, Repr

def fields : List (FieldReader Draft) :=
  [{ key := "agent_name", isGiven := (·.agentName.isSome), mayBeCut := false,
     read := fun bs => (readOptional readText bs).map fun (v, rest) =>
       (fun d => { d with agentName := some v }, rest) },
   { key := "session_id", isGiven := (·.sessionId.isSome), mayBeCut := false,
     read := fun bs => (readText bs).map fun (v, rest) =>
       (fun d => { d with sessionId := some v }, rest) },
   { key := "external_addr", isGiven := (·.externalAddr.isSome), mayBeCut := false,
     read := fun bs => (Address.readJson bs).map fun (v, rest) =>
       (fun d => { d with externalAddr := some v }, rest) },
   { key := "sample", isGiven := (·.sample.isSome), mayBeCut := false,
     read := fun bs => (Sample.shape.read bs).map fun (v, rest) =>
       (fun d => { d with sample := some v }, rest) }]

/-- The report of a draft; the agent name may be missing. -/
def Draft.finish (d : Draft) : Except Json.Error Report := do
  let sessionId ← required "session_id" d.sessionId
  let externalAddr ← required "external_addr" d.externalAddr
  let sample ← required "sample" d.sample
  .ok { agentName := d.agentName.getD none, sessionId := ⟨sessionId⟩, externalAddr, sample }

def shape : Shape Draft Report :=
  { name := "StatusReport", fields, blank := {}, finish := Draft.finish }

def ofJson? (bs : Bytes) : Except Json.Error Report :=
  readDocument shape.read bs

end HealthRelay.Report
