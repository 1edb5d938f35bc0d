import HealthRelay.Binary64.Shortest
import HealthRelay.Failure

/-!
# Errors of reading JSON

Each way in which a text is refused, and the words for it. The kinds of values are named as they
stand in the text; the wanted kinds as the reader of a field names them.
-/

namespace HealthRelay.Json

inductive Number where
  | natural (n : Nat)
  /-- Minus `n`, which is not zero. -/
  | negative (n : Nat)
  | real (negated : Bool) (magnitude : Binary64)
deriving DecidableEq, Repr

/-- A value that was found where another kind was wanted. -/
inductive Found where
  | null
  | boolean (b : Bool)
  | number (n : Number)
  | text (s : String)
  | sequence
  | map
deriving DecidableEq, Repr

inductive Wanted where
  | text
  | count
  | time
  | record (name : String)
deriving DecidableEq, Repr

inductive Error where
  | endOfValue
  | endOfText
  | endOfList
  | endOfObject
  | expectedWord
  | expectedValue
  | expectedColon
  | expectedCommaInList
  | expectedCommaInObject
  | keyNotText
  | trailingComma
  | trailingCharacters
  | invalidNumber
  | numberOutOfRange
  | invalidEscape
  | controlCharacter
  | endOfEscape
  | loneSurrogate
  | invalidCodePoint
  | invalidType (found : Found) (wanted : Wanted)
  | invalidValue (found : Number) (wanted : Wanted)
  /-- A list that ends before the element at an index that must be there. -/
  | invalidLength (index : Nat) (record : String) (fields : Nat)
  | missingField (key : String)
  | duplicateField (key : String)
  /-- A text that was read, and then refused for what it says. -/
  | refused (cause : ConfigError)
deriving DecidableEq, Repr

/-- The text of a number between backquotes. -/
def Number.message : Number → String
  | .natural n => "integer `" ++ Text.decimalText n ++ "`"
  | .negative n => "integer `-" ++ Text.decimalText n ++ "`"
  | .real negated magnitude =>
    "floating point `" ++ (if negated then "-" else "") ++ magnitude.text ++ "`"

def Found.message : Found → String
  | .null => "null"
  | .boolean true => "boolean `true`"
  | .boolean false => "boolean `false`"
  | .number n => n.message
  | .text s => "string " ++ Text.quote s
  | .sequence => "sequence"
  | .map => "map"

def Wanted.message : Wanted → String
  | .text => "a string"
  | .count => "u32"
  | .time => "u64"
  | .record name => "struct " ++ name

def Error.message : Error → String
  | .endOfValue => "EOF while parsing a value"
  | .endOfText => "EOF while parsing a string"
  | .endOfList => "EOF while parsing a list"
  | .endOfObject => "EOF while parsing an object"
  | .expectedWord => "expected ident"
  | .expectedValue => "expected value"
  | .expectedColon => "expected `:`"
  | .expectedCommaInList => "expected `,` or `]`"
  | .expectedCommaInObject => "expected `,` or `\x7d`"
  | .keyNotText => "key must be a string"
  | .trailingComma => "trailing comma"
  | .trailingCharacters => "trailing characters"
  | .invalidNumber => "invalid number"
  | .numberOutOfRange => "number out of range"
  | .invalidEscape => "invalid escape"
  | .controlCharacter => "control character (\\u0000-\\u001F) found while parsing a string"
  | .endOfEscape => "unexpected end of hex escape"
  | .loneSurrogate => "lone leading surrogate in hex escape"
  | .invalidCodePoint => "invalid unicode code point"
  | .invalidType found wanted =>
    "invalid type: " ++ found.message ++ ", expected " ++ wanted.message
  | .invalidValue found wanted =>
    "invalid value: " ++ found.message ++ ", expected " ++ wanted.message
  | .invalidLength index record fields =>
    "invalid length " ++ Text.decimalText index ++ ", expected struct " ++ record ++ " with " ++
      Text.decimalText fields ++ " elements"
  | .missingField key => "missing field `" ++ key ++ "`"
  | .duplicateField key => "duplicate field `" ++ key ++ "`"
  | .refused cause => cause.toFailure.message

end HealthRelay.Json
