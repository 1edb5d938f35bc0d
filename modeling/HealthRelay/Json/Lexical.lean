import HealthRelay.Json.Error
import HealthRelay.Text.Ascii

/-!
# The parts of a JSON text

Blanks between tokens, the words `null`, `true` and `false`, and numbers. Every reader takes the
bytes ahead and gives back the bytes after what it read.
-/

namespace HealthRelay.Json

open Text

/-- A text to be read. -/
abbrev Bytes := List UInt8

def isBlankByte (b : UInt8) : Bool :=
  b == 0x20 || b == 0x0A || b == 0x09 || b == 0x0D

def skipBlanks (bs : Bytes) : Bytes := bs.dropWhile isBlankByte

/-- The rest of a word whose first letter has been seen. -/
def readWord : List UInt8 → Bytes → Except Error Bytes
  | [], bs => .ok bs
  | _ :: _, [] => .error .endOfValue
  | w :: ws, b :: bs => if b = w then readWord ws bs else .error .expectedWord

def nullRest : List UInt8 := asciiBytes "ull"

def trueRest : List UInt8 := asciiBytes "rue"

def falseRest : List UInt8 := asciiBytes "alse"

/-! ## Numbers -/

/-- Largest whole number that is kept exactly. -/
def maxWhole : Nat := 18446744073709551615

/-- A row of digits: the number it continues, how many digits went into it before it would pass
`maxWhole`, and how many came after. -/
structure Digits where
  value : Nat
  taken : Nat
  dropped : Nat
  rest : Bytes
deriving DecidableEq, Repr

/-- The number of digits at the start of a text, and what follows them. -/
def countDigits (n : Nat) : Bytes → Nat × Bytes
  | [] => (n, [])
  | b :: bs => if isDigitByte b then countDigits (n + 1) bs else (n, b :: bs)

/-- The digits at the start of a text, continuing the number `value`. -/
def takeDigits (value taken : Nat) : Bytes → Digits
  | [] => ⟨value, taken, 0, []⟩
  | b :: bs =>
    match byteDigit? b with
    | none => ⟨value, taken, 0, b :: bs⟩
    | some d =>
      if value * 10 + d ≤ maxWhole then takeDigits (value * 10 + d) (taken + 1) bs
      else
        let (dropped, rest) := countDigits 1 bs
        ⟨value, taken, dropped, rest⟩

/-- The number after a row of digits, without a limit. -/
def takeExponent (value : Nat) : Bytes → Nat × Bytes
  | [] => (value, [])
  | b :: bs =>
    match byteDigit? b with
    | none => (value, b :: bs)
    | some d => takeExponent (value * 10 + d) bs

def realNumber (negated : Bool) (significand : Nat) (exponent : Int) (rest : Bytes) :
    Except Error (Number × Bytes) :=
  match Binary64.ofDecimal significand exponent with
  | some x => .ok (.real negated x, rest)
  | none => .error .numberOutOfRange

/-- The largest exponent that is counted out. -/
def maxExponent : Nat := 2147483647

/-- An exponent, after its letter. -/
def readExponent (negated : Bool) (significand : Nat) (start : Int) (bs : Bytes) :
    Except Error (Number × Bytes) :=
  let (down, bs) := match bs with
    | b :: rest =>
      if b = ascii '+' then (false, rest)
      else if b = ascii '-' then (true, rest)
      else (false, b :: rest)
    | [] => (false, [])
  match bs with
  | [] => .error .endOfValue
  | b :: _ =>
    if isDigitByte b then
      let (e, rest) := takeExponent 0 bs
      if maxExponent < e then
        if significand ≠ 0 ∧ down = false then .error .numberOutOfRange
        else .ok (.real negated Binary64.zero, rest)
      else
        realNumber negated significand (if down then start - e else start + e) rest
    else .error .invalidNumber

/-- A fraction, after its point. -/
def readFraction (negated : Bool) (significand : Nat) (start : Int) (bs : Bytes) :
    Except Error (Number × Bytes) :=
  let ds := takeDigits significand 0 bs
  if ds.taken + ds.dropped = 0 then
    match ds.rest with
    | [] => .error .endOfValue
    | _ :: _ => .error .invalidNumber
  else
    let exponent := start - ds.taken
    match ds.rest with
    | [] => realNumber negated ds.value exponent []
    | b :: rest =>
      if b = ascii 'e' ∨ b = ascii 'E' then readExponent negated ds.value exponent rest
      else realNumber negated ds.value exponent (b :: rest)

/-- A number with no fraction and no exponent; zero and very low numbers become real when
negated. -/
def wholeNumber (negated : Bool) (n : Nat) : Number :=
  if negated then
    if 1 ≤ n ∧ n ≤ 9223372036854775808 then .negative n else .real true (Binary64.ofNat n)
  else .natural n

/-- What follows the whole part of a number. -/
def readAfterWhole (negated : Bool) (ds : Digits) : Except Error (Number × Bytes) :=
  match ds.rest with
  | [] =>
    if ds.dropped = 0 then .ok (wholeNumber negated ds.value, [])
    else realNumber negated ds.value ds.dropped []
  | b :: rest =>
    if b = ascii '.' then readFraction negated ds.value ds.dropped rest
    else if b = ascii 'e' ∨ b = ascii 'E' then readExponent negated ds.value ds.dropped rest
    else if ds.dropped = 0 then .ok (wholeNumber negated ds.value, b :: rest)
    else realNumber negated ds.value ds.dropped (b :: rest)

/-- A number, after its minus sign if it has one. -/
def readNumber (negated : Bool) : Bytes → Except Error (Number × Bytes)
  | [] => .error .endOfValue
  | b :: bs =>
    match byteDigit? b with
    | none => .error .invalidNumber
    | some 0 =>
      match bs with
      | [] => readAfterWhole negated ⟨0, 1, 0, []⟩
      | c :: _ =>
        if isDigitByte c then .error .invalidNumber else readAfterWhole negated ⟨0, 1, 0, bs⟩
    | some d => readAfterWhole negated (takeDigits d 1 bs)

end HealthRelay.Json
