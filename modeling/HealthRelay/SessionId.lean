/-!
# Session identities

The identity of one monitoring session: made once, then shared by every report of the session.
-/

namespace HealthRelay

/-- The identity of a session. Its text is never looked into. -/
structure SessionId where
  text : String
deriving DecidableEq, Repr

namespace SessionId

def le (a b : SessionId) : Bool :=
  decide (a.text = b.text) || decide (a.text < b.text)

/-- A sorted list with every repetition left out. -/
def dropRepeated : List SessionId → List SessionId
  | [] => []
  | a :: rest =>
    match dropRepeated rest with
    | [] => [a]
    | b :: bs => if a = b then b :: bs else a :: b :: bs

/-- The identities of a list in increasing order, each once. -/
def sorted (ids : List SessionId) : List SessionId :=
  dropRepeated (ids.mergeSort le)

def statusUpdatePath (id : SessionId) : String :=
  "/api/v1/agent/status_update/" ++ id.text

end SessionId

end HealthRelay
