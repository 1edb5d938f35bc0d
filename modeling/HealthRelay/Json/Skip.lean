import HealthRelay.Json.Quoted

/-!
# Passing over a value

`skipValue` finds the end of one value of any nesting. Lists and objects that are still open are
kept on a stack, so the depth of a value costs nothing but memory.
-/

namespace HealthRelay.Json

open Text

/-- What is still open around a value. -/
inductive Nesting where
  | list
  | object
deriving DecidableEq, Repr

/-- The end of the text inside an open list or object. -/
def Nesting.atEnd : Nesting → Error
  | .list => .endOfList
  | .object => .endOfObject

/-- Something other than a comma or the end after an element or member. -/
def Nesting.wantsComma : Nesting → Error
  | .list => .expectedCommaInList
  | .object => .expectedCommaInObject

def Nesting.close : Nesting → UInt8
  | .list => ascii ']'
  | .object => ascii '\x7d'

/-- What follows the exponent of a number that is passed over, after its letter. -/
def skipExponent (bs : Bytes) : Except Error Bytes :=
  let bs := match bs with
    | b :: rest => if b = ascii '+' ∨ b = ascii '-' then rest else b :: rest
    | [] => []
  match bs with
  | [] => .error .invalidNumber
  | b :: rest => if isDigitByte b then .ok (rest.dropWhile isDigitByte) else .error .invalidNumber

/-- What follows the digits of a number that is passed over: an exponent or nothing. -/
def skipOptionalExponent (bs : Bytes) : Except Error Bytes :=
  match bs with
  | b :: rest => if b = ascii 'e' ∨ b = ascii 'E' then skipExponent rest else .ok bs
  | [] => .ok []

/-- What follows the whole part of a number that is passed over. -/
def skipAfterWhole (bs : Bytes) : Except Error Bytes :=
  match bs with
  | [] => .ok []
  | b :: rest =>
    if b = ascii '.' then
      match rest with
      | [] => .error .invalidNumber
      | d :: rest =>
        if isDigitByte d then skipOptionalExponent (rest.dropWhile isDigitByte)
        else .error .invalidNumber
    else skipOptionalExponent bs

/-- What follows a number, after its minus sign if it has one. Its size does not matter. -/
def skipNumber : Bytes → Except Error Bytes
  | [] => .error .invalidNumber
  | b :: bs =>
    if b = ascii '0' then
      match bs with
      | [] => .ok []
      | c :: _ => if isDigitByte c then .error .invalidNumber else skipAfterWhole bs
    else if isDigitByte b then skipAfterWhole (bs.dropWhile isDigitByte)
    else .error .invalidNumber

/-- A value's first byte, and what follows the value or the opening of a nested one. -/
inductive Start where
  /-- The value is over. -/
  | past (rest : Bytes)
  /-- A list or an object has been opened. -/
  | opened (nesting : Nesting) (rest : Bytes)
deriving DecidableEq, Repr

/-- Passes over a value that holds no other, or the opening of one that may. -/
def skipStart (bs : Bytes) : Except Error Start :=
  match skipBlanks bs with
  | [] => .error .endOfValue
  | b :: rest =>
    if b = ascii 'n' then (readWord nullRest rest).map .past
    else if b = ascii 't' then (readWord trueRest rest).map .past
    else if b = ascii 'f' then (readWord falseRest rest).map .past
    else if b = ascii '-' then (skipNumber rest).map .past
    else if isDigitByte b then (skipNumber (b :: rest)).map .past
    else if b = ascii '"' then (skipQuoted rest).map .past
    else if b = ascii '[' then .ok (.opened .list rest)
    else if b = ascii '\x7b' then .ok (.opened .object rest)
    else .error .expectedValue

/-- Passes over the ends of open lists and objects. With `none` left open the value is over; else
the nesting that goes on is given with what follows its comma, or its opening. -/
def closeOpen (afterValue : Bool) : Nat → List Nesting → Bytes →
    Except Error (Option (Nesting × List Nesting) × Bytes)
  | _, [], bs => .ok (none, bs)
  | 0, top :: _, _ => .error top.atEnd
  | fuel + 1, top :: below, bs =>
    match skipBlanks bs with
    | [] => .error top.atEnd
    | b :: rest =>
      if b = ascii ',' ∧ afterValue then .ok (some (top, below), rest)
      else if b = top.close then closeOpen true fuel below rest
      else if afterValue then .error top.wantsComma
      else .ok (some (top, below), b :: rest)

/-- Passes over a key and its colon where an object goes on. -/
def skipKey (bs : Bytes) : Except Error Bytes :=
  match skipBlanks bs with
  | [] => .error .endOfObject
  | b :: rest =>
    if b = ascii '"' then
      match skipQuoted rest with
      | .error e => .error e
      | .ok rest =>
        match skipBlanks rest with
        | [] => .error .endOfObject
        | c :: rest => if c = ascii ':' then .ok rest else .error .expectedColon
    else .error .keyNotText

/-- Passes over a value inside open lists and objects, and over the rest of those. -/
def skipInside : Nat → List Nesting → Bytes → Except Error Bytes
  | 0, _, _ => .error .endOfValue
  | fuel + 1, stack, bs => do
    let start ← skipStart bs
    let (next, rest) ← match start with
      | .past rest => closeOpen true rest.length stack rest
      | .opened nesting rest => closeOpen false rest.length (nesting :: stack) rest
    match next with
    | none => .ok rest
    | some (.list, below) => skipInside fuel (.list :: below) rest
    | some (.object, below) =>
      let rest ← skipKey rest
      skipInside fuel (.object :: below) rest

def skipValue (bs : Bytes) : Except Error Bytes :=
  skipInside (bs.length + 1) [] bs

end HealthRelay.Json
