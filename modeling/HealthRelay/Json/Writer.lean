import HealthRelay.Json.Quoted

/-!
# Writing records

Objects are written compactly, their members in the order given.
-/

namespace HealthRelay.Json

structure Member where
  key : String
  value : List Char
deriving DecidableEq, Repr

def Member.write (m : Member) : List Char :=
  writeQuoted m.key.toList ++ ':' :: m.value

def writeMembers : List Member → List Char
  | [] => []
  | [m] => m.write
  | m :: ms => m.write ++ ',' :: writeMembers ms

def writeObject (ms : List Member) : List Char :=
  '\x7b' :: writeMembers ms ++ ['\x7d']

def writeNull : List Char := ['n', 'u', 'l', 'l']

/-- A text, or `null` for none. -/
def writeOptional : Option String → List Char
  | some s => writeQuoted s.toList
  | none => writeNull

example : writeObject [⟨"a", writeNull⟩, ⟨"b", writeQuoted ['"']⟩] =
    "\x7b\"a\":null,\"b\":\"\\\"\"\x7d".toList := by decide +kernel

end HealthRelay.Json
