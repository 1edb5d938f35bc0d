import HealthRelay.Json.Lexical
import HealthRelay.Text.Hex
import HealthRelay.Text.Utf8

/-!
# Quoted texts in JSON

`readQuoted` reads a text after its opening quote, escapes included; whether its bytes are UTF-8 is
looked at last. `skipQuoted` passes over a text without looking at what it says. `writeQuoted`
writes a text with the fewest escapes.
-/

namespace HealthRelay.Json

open Text

def readHex4 : Bytes → Except Error (Nat × Bytes)
  | a :: b :: c :: d :: rest =>
    match hexValue? a.toNat, hexValue? b.toNat, hexValue? c.toNat, hexValue? d.toNat with
    | some a, some b, some c, some d => .ok (((a * 16 + b) * 16 + c) * 16 + d, rest)
    | _, _, _, _ => .error .invalidEscape
  | _ => .error .endOfText

/-- The second half of a pair of escapes, for a first half between `D800` and `DBFF`. -/
def readSecondHalf (first : Nat) (bs : Bytes) : Except Error (Char × Bytes) :=
  match bs with
  | [] => .error .endOfText
  | a :: bs =>
    if a ≠ ascii '\\' then .error .endOfEscape
    else
      match bs with
      | [] => .error .endOfText
      | b :: bs =>
        if b ≠ ascii 'u' then .error .endOfEscape
        else
          match readHex4 bs with
          | .error e => .error e
          | .ok (second, rest) =>
            if 0xDC00 ≤ second ∧ second ≤ 0xDFFF then
              .ok (Char.ofNat (0x10000 + (first - 0xD800) * 0x400 + (second - 0xDC00)), rest)
            else .error .loneSurrogate

/-- An escape by code, after its `\u`. -/
def readCodeEscape (bs : Bytes) : Except Error (Char × Bytes) :=
  match readHex4 bs with
  | .error e => .error e
  | .ok (n, rest) =>
    if 0xDC00 ≤ n ∧ n ≤ 0xDFFF then .error .loneSurrogate
    else if 0xD800 ≤ n ∧ n ≤ 0xDBFF then readSecondHalf n rest
    else .ok (Char.ofNat n, rest)

def shortEscape? (b : UInt8) : Option Char :=
  if b = ascii '"' then some '"'
  else if b = ascii '\\' then some '\\'
  else if b = ascii '/' then some '/'
  else if b = ascii 'b' then some '\x08'
  else if b = ascii 'f' then some '\x0c'
  else if b = ascii 'n' then some '\n'
  else if b = ascii 'r' then some '\r'
  else if b = ascii 't' then some '\t'
  else none

/-- An escape, after its backslash. -/
def readEscape : Bytes → Except Error (Char × Bytes)
  | [] => .error .endOfText
  | b :: bs =>
    match shortEscape? b with
    | some c => .ok (c, bs)
    | none => if b = ascii 'u' then readCodeEscape bs else .error .invalidEscape

/-- The bytes of a text up to its closing quote, escapes replaced, within `fuel` characters. -/
def gatherQuoted : Nat → Bytes → Except Error (Bytes × Bytes)
  | 0, _ => .error .endOfText
  | _ + 1, [] => .error .endOfText
  | fuel + 1, b :: bs =>
    if b = ascii '"' then .ok ([], bs)
    else if b = ascii '\\' then
      match readEscape bs with
      | .error e => .error e
      | .ok (c, rest) =>
        match gatherQuoted fuel rest with
        | .error e => .error e
        | .ok (text, rest) => .ok (Utf8.encodeChar c ++ text, rest)
    else if b < 0x20 then .error .controlCharacter
    else
      match gatherQuoted fuel bs with
      | .error e => .error e
      | .ok (text, rest) => .ok (b :: text, rest)

/-- A text, after its opening quote. -/
def readQuoted (bs : Bytes) : Except Error (String × Bytes) :=
  match gatherQuoted bs.length bs with
  | .error e => .error e
  | .ok (text, rest) =>
    match Utf8.decode? text with
    | some cs => .ok (String.ofList cs, rest)
    | none => .error .invalidCodePoint

/-- An escape in a text that is passed over, after its backslash. -/
def skipEscape : Bytes → Except Error Bytes
  | [] => .error .endOfText
  | b :: bs =>
    if (shortEscape? b).isSome then .ok bs
    else if b = ascii 'u' then
      match readHex4 bs with
      | .error e => .error e
      | .ok (_, rest) => .ok rest
    else .error .invalidEscape

/-- What follows a text, after its opening quote, within `fuel` characters. -/
def skipQuotedWithin : Nat → Bytes → Except Error Bytes
  | 0, _ => .error .endOfText
  | _ + 1, [] => .error .endOfText
  | fuel + 1, b :: bs =>
    if b = ascii '"' then .ok bs
    else if b = ascii '\\' then
      match skipEscape bs with
      | .error e => .error e
      | .ok rest => skipQuotedWithin fuel rest
    else if b < 0x20 then .error .controlCharacter
    else skipQuotedWithin fuel bs

/-- What follows a text, after its opening quote. -/
def skipQuoted (bs : Bytes) : Except Error Bytes :=
  skipQuotedWithin bs.length bs

/-! ## Writing -/

def writeChar (c : Char) : List Char :=
  match c with
  | '"' => ['\\', '"']
  | '\\' => ['\\', '\\']
  | '\x08' => ['\\', 'b']
  | '\x0c' => ['\\', 'f']
  | '\n' => ['\\', 'n']
  | '\r' => ['\\', 'r']
  | '\t' => ['\\', 't']
  | _ =>
    if c.toNat < 0x20 then
      ['\\', 'u', '0', '0', hexDigitLower (c.toNat / 16), hexDigitLower (c.toNat % 16)]
    else [c]

def writeQuoted (cs : List Char) : List Char :=
  '"' :: cs.flatMap writeChar ++ ['"']

end HealthRelay.Json
