import HealthRelay.Json.Skip

/-!
# Reading single values

Readers of texts, counts and times. A reader that finds another kind of value first reads it as far
as is needed to name it, so a broken value is reported before a misplaced one.
-/

namespace HealthRelay.Json

open Text

/-- A reader of one value, blanks before it included. -/
abbrev Reader (α : Type) := Bytes → Except Error (α × Bytes)

def misplaced (wanted : Wanted) (bs : Bytes) : Error :=
  match bs with
  | [] => .expectedValue
  | b :: rest =>
    let word (ws : List UInt8) (found : Found) : Error :=
      match readWord ws rest with
      | .ok _ => .invalidType found wanted
      | .error e => e
    let number (negated : Bool) (bs : Bytes) : Error :=
      match readNumber negated bs with
      | .ok (n, _) => .invalidType (.number n) wanted
      | .error e => e
    if b = ascii 'n' then word nullRest .null
    else if b = ascii 't' then word trueRest (.boolean true)
    else if b = ascii 'f' then word falseRest (.boolean false)
    else if b = ascii '-' then number true rest
    else if isDigitByte b then number false bs
    else if b = ascii '"' then
      match readQuoted rest with
      | .ok (s, _) => .invalidType (.text s) wanted
      | .error e => e
    else if b = ascii '[' then .invalidType .sequence wanted
    else if b = ascii '\x7b' then .invalidType .map wanted
    else .expectedValue

def readText : Reader String := fun bs =>
  match skipBlanks bs with
  | [] => .error .endOfValue
  | b :: rest => if b = ascii '"' then readQuoted rest else .error (misplaced .text (b :: rest))

def bounded (limit : Nat) (wanted : Wanted) (rest : Bytes) : Number → Except Error (Nat × Bytes)
  | .natural n =>
    if n ≤ limit then .ok (n, rest) else .error (.invalidValue (.natural n) wanted)
  | .negative n => .error (.invalidValue (.negative n) wanted)
  | .real negated x => .error (.invalidType (.number (.real negated x)) wanted)

def readWhole (limit : Nat) (wanted : Wanted) : Reader Nat := fun bs =>
  match skipBlanks bs with
  | [] => .error .endOfValue
  | b :: rest => do
    if b = ascii '-' then
      let (n, rest) ← readNumber true rest
      bounded limit wanted rest n
    else if isDigitByte b then
      let (n, rest) ← readNumber false (b :: rest)
      bounded limit wanted rest n
    else .error (misplaced wanted (b :: rest))

def readCount : Reader UInt32 := fun bs =>
  (readWhole 4294967295 .count bs).map fun (n, rest) => (UInt32.ofNat n, rest)

def readTime : Reader UInt64 := fun bs =>
  (readWhole 18446744073709551615 .time bs).map fun (n, rest) => (UInt64.ofNat n, rest)

/-- Reads a value that may be `null`. -/
def readOptional {α : Type} (read : Reader α) : Reader (Option α) := fun bs =>
  match skipBlanks bs with
  | [] => (read []).map fun (a, rest) => (some a, rest)
  | b :: rest =>
    if b = ascii 'n' then (readWord nullRest rest).map fun rest => (none, rest)
    else (read (b :: rest)).map fun (a, rest) => (some a, rest)

/-- Reads a whole text: one value, and nothing but blanks around it. -/
def readDocument {α : Type} (read : Reader α) (bs : Bytes) : Except Error α :=
  match read bs with
  | .error e => .error e
  | .ok (a, rest) =>
    match skipBlanks rest with
    | [] => .ok a
    | _ :: _ => .error .trailingCharacters

end HealthRelay.Json
