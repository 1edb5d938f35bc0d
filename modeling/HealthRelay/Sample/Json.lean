import HealthRelay.Json.Record
import HealthRelay.Json.Writer
import HealthRelay.Sample

/-!
# Samples in JSON

A sample is an object of its fields; slot counts and the error are left out when absent.
-/

namespace HealthRelay

open Json

namespace Sample

def members (s : Sample) : List Member :=
  let count (key : String) : Option UInt32 → List Member
    | some n => [⟨key, Text.decimal n.toNat⟩]
    | none => []
  let failure : List Member :=
    match s.error with
    | some e => [⟨"error", writeQuoted e.toList⟩]
    | none => []
  ⟨"status", writeQuoted s.status.toList⟩ ::
    count "slots_idle" s.slotsIdle ++ count "slots_processing" s.slotsProcessing ++ failure ++
    [⟨"observed_at_ms", Text.decimal s.observedAtMs.toNat⟩]

def jsonChars (s : Sample) : List Char :=
  writeObject s.members

def json (s : Sample) : String :=
  String.ofList s.jsonChars

structure Draft where
  status : Option String := none
  slotsIdle : Option (Option UInt32) := none
  slotsProcessing : Option (Option UInt32) := none
  error : Option (Option String) := none
  observedAtMs : Option UInt64 := none
deriving DecidableEq, Repr

def fields : List (FieldReader Draft) :=
  [{ key := "status", isGiven := (·.status.isSome), mayBeCut := false,
     read := fun bs => (readText bs).map fun (v, rest) =>
       (fun d => { d with status := some v }, rest) },
   { key := "slots_idle", isGiven := (·.slotsIdle.isSome), mayBeCut := true,
     read := fun bs => (readOptional readCount bs).map fun (v, rest) =>
       (fun d => { d with slotsIdle := some v }, rest) },
   { key := "slots_processing", isGiven := (·.slotsProcessing.isSome), mayBeCut := true,
     read := fun bs => (readOptional readCount bs).map fun (v, rest) =>
       (fun d => { d with slotsProcessing := some v }, rest) },
   { key := "error", isGiven := (·.error.isSome), mayBeCut := true,
     read := fun bs => (readOptional readText bs).map fun (v, rest) =>
       (fun d => { d with error := some v }, rest) },
   { key := "observed_at_ms", isGiven := (·.observedAtMs.isSome), mayBeCut := false,
     read := fun bs => (readTime bs).map fun (v, rest) =>
       (fun d => { d with observedAtMs := some v }, rest) }]

/-- The sample of a draft; counts and error may be missing. -/
def Draft.finish (d : Draft) : Except Json.Error Sample := do
  let status ← required "status" d.status
  let observedAtMs ← required "observed_at_ms" d.observedAtMs
  .ok {
    status
    slotsIdle := d.slotsIdle.getD none
    slotsProcessing := d.slotsProcessing.getD none
    error := d.error.getD none
    observedAtMs }

def shape : Shape Draft Sample :=
  { name := "HealthSample", fields, blank := {}, finish := Draft.finish }

def ofJson? (bs : Bytes) : Except Json.Error Sample :=
  readDocument shape.read bs

end Sample

end HealthRelay
