import HealthRelay.Address
import HealthRelay.Json.Value

/-!
# Addresses in JSON

An address is written as its text, and read from a text that is one.
-/

namespace HealthRelay.Address

open Json

def jsonChars (a : Address) : List Char :=
  writeQuoted a.chars

def json (a : Address) : String :=
  String.ofList a.jsonChars

def readJson : Reader Address := fun bs =>
  match readText bs with
  | .error e => .error e
  | .ok (s, rest) =>
    match ofText? s with
    | .ok a => .ok (a, rest)
    | .error cause => .error (.refused cause)

def ofJson? (bs : Bytes) : Except Json.Error Address :=
  readDocument readJson bs

end HealthRelay.Address
