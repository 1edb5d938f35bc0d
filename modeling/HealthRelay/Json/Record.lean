import HealthRelay.Json.Value

/-!
# Reading records

A record is written as an object, its members in any order and unknown ones passed over, or as a
list of its fields in their own order. `σ` is the draft of a record: what has been read so far.
-/

namespace HealthRelay.Json

open Text

structure FieldReader (σ : Type) where
  key : String
  /-- Whether the field has been read. -/
  isGiven : σ → Bool
  /-- Reads the field's value and says how the draft takes it. -/
  read : Reader (σ → σ)
  /-- Whether a list may end before this field. -/
  mayBeCut : Bool

/-- How a record of type `α` is read through drafts of type `σ`. -/
structure Shape (σ α : Type) where
  name : String
  fields : List (FieldReader σ)
  /-- The draft before anything has been read. -/
  blank : σ
  /-- The record of a finished draft, or the first field that is missing. -/
  finish : σ → Except Error α

/-- Whether a list goes on with another element, and the text of that element. -/
def nextElement (first : Bool) (bs : Bytes) : Except Error (Option Bytes) :=
  match skipBlanks bs with
  | [] => .error .endOfList
  | b :: rest =>
    if b = ascii ']' then .ok none
    else if first then .ok (some (b :: rest))
    else if b = ascii ',' then
      match skipBlanks rest with
      | [] => .error .endOfValue
      | c :: rest => if c = ascii ']' then .error .trailingComma else .ok (some (c :: rest))
    else .error .expectedCommaInList

def readElements {σ : Type} (name : String) (total : Nat) :
    (index : Nat) → List (FieldReader σ) → σ → Bytes → Except Error (σ × Bytes)
  | _, [], draft, bs => .ok (draft, bs)
  | index, field :: fields, draft, bs => do
    match ← nextElement (index == 0) bs with
    | some bs =>
      let (set, rest) ← field.read bs
      readElements name total (index + 1) fields (set draft) rest
    | none =>
      if field.mayBeCut then readElements name total (index + 1) fields draft bs
      else .error (.invalidLength index name total)

/-- The end of a list whose elements have all been read. -/
def endOfElements (bs : Bytes) : Except Error Bytes :=
  match skipBlanks bs with
  | [] => .error .endOfList
  | b :: rest =>
    if b = ascii ']' then .ok rest
    else if b = ascii ',' then
      match skipBlanks rest with
      | [] => .error .trailingCharacters
      | c :: _ => if c = ascii ']' then .error .trailingComma else .error .trailingCharacters
    else .error .trailingCharacters

/-- The text after the opening quote of the next key; `none` with the rest where the object ends. -/
def nextKey (first : Bool) (bs : Bytes) : Except Error (Bool × Bytes) :=
  match skipBlanks bs with
  | [] => .error .endOfObject
  | b :: rest =>
    if b = ascii '\x7d' then .ok (false, rest)
    else if first then
      if b = ascii '"' then .ok (true, rest) else .error .keyNotText
    else if b = ascii ',' then
      match skipBlanks rest with
      | [] => .error .endOfValue
      | c :: rest =>
        if c = ascii '"' then .ok (true, rest)
        else if c = ascii '\x7d' then .error .trailingComma
        else .error .keyNotText
    else .error .expectedCommaInObject

def readColon (bs : Bytes) : Except Error Bytes :=
  match skipBlanks bs with
  | [] => .error .endOfObject
  | b :: rest => if b = ascii ':' then .ok rest else .error .expectedColon

/-- Reads what follows a key: the value of its field, or an unknown value that is passed over. -/
def readMember {σ : Type} (fields : List (FieldReader σ)) (key : String) (draft : σ) (bs : Bytes) :
    Except Error (σ × Bytes) :=
  match fields.find? fun field => field.key == key with
  | some field =>
    if field.isGiven draft then .error (.duplicateField key)
    else do
      let rest ← readColon bs
      let (set, rest) ← field.read rest
      .ok (set draft, rest)
  | none => do
    let rest ← readColon bs
    let rest ← skipValue rest
    .ok (draft, rest)

/-- Reads the members of an object, at most `fuel` of them. -/
def readMembers {σ : Type} (fields : List (FieldReader σ)) (first : Bool) :
    Nat → σ → Bytes → Except Error (σ × Bytes)
  | 0, _, _ => .error .endOfObject
  | fuel + 1, draft, bs => do
    let (more, rest) ← nextKey first bs
    if more then
      let (key, rest) ← readQuoted rest
      let (draft, rest) ← readMember fields key draft rest
      readMembers fields false fuel draft rest
    else .ok (draft, rest)

def Shape.read {σ α : Type} (shape : Shape σ α) : Reader α := fun bs =>
  match skipBlanks bs with
  | [] => .error .endOfValue
  | b :: rest =>
    if b = ascii '[' then do
      let (draft, rest) ←
        readElements shape.name shape.fields.length 0 shape.fields shape.blank rest
      let record ← shape.finish draft
      let rest ← endOfElements rest
      .ok (record, rest)
    else if b = ascii '\x7b' then do
      let (draft, rest) ← readMembers shape.fields true (rest.length + 1) shape.blank rest
      let record ← shape.finish draft
      .ok (record, rest)
    else .error (misplaced (.record shape.name) (b :: rest))

def required {α : Type} (key : String) : Option α → Except Error α
  | some a => .ok a
  | none => .error (.missingField key)

end HealthRelay.Json
