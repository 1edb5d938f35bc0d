import HealthRelay.Toml.Item

/-!
# Reading TOML

Values with their nesting limit, and the lines of a document: keys with values, headers of tables,
and headers of repeated tables.
-/

namespace HealthRelay.Toml

abbrev ReadItem := List Char → Option (Item × List Char)

/-- The items of a list, after its opening bracket or a comma, at most `fuel`. -/
def readItems (read : ReadItem) : Nat → List Char → Option (List Item × List Char)
  | 0, _ => none
  | fuel + 1, cs =>
    match skipLines cs.length cs with
    | ']' :: rest => some ([], rest)
    | cs =>
      match read cs with
      | none => none
      | some (item, rest) =>
        match skipLines rest.length rest with
        | ',' :: rest =>
          (readItems read fuel rest).map fun (items, rest) => (item :: items, rest)
        | ']' :: rest => some ([item], rest)
        | _ => none

def readPair (read : ReadItem) (cs : List Char) :
    Option ((List String × Item) × List Char) :=
  match readKey cs with
  | some (key, '=' :: rest) =>
    (read (skipBlanks rest)).map fun (item, rest) => ((key, item), rest)
  | _ => none

/-- The pairs of an inline table from the first on, at most `fuel`, added to `rows`. -/
def readPairs (read : ReadItem) : Nat → Rows → List Char → Option (Rows × List Char)
  | 0, _, _ => none
  | fuel + 1, rows, cs =>
    match readPair read cs with
    | none => none
    | some ((key, item), rest) =>
      match Rows.put item key true rows with
      | none => none
      | some rows =>
        match skipBlanks rest with
        | ',' :: rest => readPairs read fuel rows rest
        | '\x7d' :: rest => some (rows, rest)
        | _ => none

def readInline (read : ReadItem) (cs : List Char) : Option (Item × List Char) :=
  match skipBlanks cs with
  | '\x7d' :: rest => some (.table .inline [], rest)
  | cs => (readPairs read (cs.length + 1) [] cs).map fun (rows, rest) => (.table .inline rows, rest)

/-- A value that holds no others. -/
def readLeaf (cs : List Char) : Option (Item × List Char) :=
  match cs with
  | '"' :: _ => (readText cs).map fun (s, rest) => (.text (String.ofList s), rest)
  | '\'' :: _ => (readText cs).map fun (s, rest) => (.text (String.ofList s), rest)
  | cs => (readScalar cs).map fun (kind, rest) => (.scalar kind, rest)

/-- A value in which lists and inline tables are nested at most `depth` deep. -/
def readItem : (depth : Nat) → List Char → Option (Item × List Char)
  | 0, cs => readLeaf cs
  | depth + 1, cs =>
    match cs with
    | '[' :: rest =>
      (readItems (readItem depth) (rest.length + 1) rest).map fun (items, rest) =>
        (.list items, rest)
    | '\x7b' :: rest => readInline (readItem depth) rest
    | cs => readLeaf cs

/-- A document that is being read: all rows so far, and the header that keys belong to. -/
structure Document where
  rows : Rows
  header : List String

namespace Document

def empty : Document := ⟨[], []⟩

def put (d : Document) (key : List String) (item : Item) : Option Document :=
  (Rows.within (Rows.put item key true) d.header d.rows).map fun rows => { d with rows }

/-- Starts the table of a header with `start` for its last part. -/
def startWith (start : String → Rows → Option Rows) (d : Document) (header : List String) :
    Option Document :=
  match header.getLast? with
  | none => none
  | some key =>
    (Rows.within (start key) header.dropLast d.rows).map fun rows => ⟨rows, header⟩

/-- A header and the rest of its line, after its opening brackets. -/
def readHeader (d : Document) (repeated : Bool) (cs : List Char) :
    Option (Document × List Char) :=
  match readKey cs with
  | none => none
  | some (header, rest) =>
    let closed := match repeated, rest with
      | true, ']' :: ']' :: rest => some rest
      | false, ']' :: rest => some rest
      | _, _ => none
    match closed with
    | none => none
    | some rest =>
      match finishLine rest with
      | none => none
      | some rest =>
        let start := if repeated then Rows.openElement else Rows.openTable
        (d.startWith start header).map fun d => (d, rest)

/-- One line that holds more than blanks, or the blank lines and comments before it. -/
def readLine (d : Document) (cs : List Char) : Option (Document × List Char) :=
  match cs with
  | '#' :: _ => (finishLine cs).map fun rest => (d, rest)
  | '\n' :: _ => (finishLine cs).map fun rest => (d, rest)
  | '\r' :: _ => (finishLine cs).map fun rest => (d, rest)
  | '[' :: '[' :: rest => d.readHeader true rest
  | '[' :: rest => d.readHeader false rest
  | cs =>
    match readPair (readItem (nestingLimit - 1)) cs with
    | none => none
    | some ((key, item), rest) =>
      match finishLine rest with
      | none => none
      | some rest => (d.put key item).map fun d => (d, rest)

def readLines : Nat → Document → List Char → Option Document
  | 0, _, _ => none
  | fuel + 1, d, cs =>
    match skipBlanks cs with
    | [] => some d
    | cs =>
      match d.readLine cs with
      | some (d, rest) => readLines fuel d rest
      | none => none

end Document

/-- The rows of a text; a byte-order mark at its start is left out. -/
def readDocument (cs : List Char) : Option Rows :=
  let cs := match cs with
    | '\ufeff' :: rest => rest
    | cs => cs
  (Document.readLines (cs.length + 1) .empty cs).map (·.rows)

end HealthRelay.Toml
