import HealthRelay.ConfigError
import HealthRelay.Text.Blank

/-!
# Addresses

A `host:port` pair. A text is split at its last colon, so a host may hold colons of its own.
-/

namespace HealthRelay

/-- A server's host and port. -/
structure Address where
  host : String
  port : UInt16
deriving DecidableEq, Repr

namespace Address

def chars (a : Address) : List Char :=
  a.host.toList ++ ':' :: Text.decimal a.port.toNat

/-- The text of an address, `host:port`. -/
def text (a : Address) : String :=
  String.ofList a.chars

/-- What stands before and after the last colon. -/
def splitLastColon : List Char → Option (List Char × List Char)
  | [] => none
  | c :: cs =>
    match splitLastColon cs with
    | some (host, port) => some (c :: host, port)
    | none => if c = ':' then some ([], cs) else none

/-- The address that a text writes, white space at its ends aside. -/
def ofText? (s : String) : Except ConfigError Address :=
  let trimmed := Text.trim s.toList
  match splitLastColon trimmed with
  | none => .error (.notHostPort (String.ofList trimmed))
  | some ([], _) => .error (.emptyHost (String.ofList trimmed))
  | some (host, port) =>
    match Text.readUnsigned 65535 port with
    | some n => .ok ⟨String.ofList host, UInt16.ofNat n⟩
    | none => .error (.invalidPort (String.ofList trimmed))

example : splitLastColon [':', ':', '1', ':', '8'] = some ([':', ':', '1'], ['8']) := by decide

example : (ofText? " ::1:+080 ").toOption = some ⟨"::1", 80⟩ := by decide +kernel

end Address

end HealthRelay
