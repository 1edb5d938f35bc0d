import HealthRelay.Text.Decimal
import HealthRelay.Text.Hex

/-!
# The parts of a TOML text

Blanks, line ends, comments, and the four ways to write a text. Every reader takes the characters
ahead and gives back the characters after what it read, or `none` if the text is refused.
-/

namespace HealthRelay.Toml

open Text

def isBlankChar (c : Char) : Bool := c == ' ' || c == '\t'

def skipBlanks (cs : List Char) : List Char := cs.dropWhile isBlankChar

def readNewline : List Char → Option (List Char)
  | '\n' :: rest => some rest
  | '\r' :: '\n' :: rest => some rest
  | _ => none

/-- What follows a line end, or the end of the text. -/
def readLineEnd : List Char → Option (List Char)
  | [] => some []
  | c :: cs => readNewline (c :: cs)

def isCommentChar (c : Char) : Bool :=
  c == '\t' || decide (0x20 ≤ c.toNat ∧ c.toNat ≤ 0x7E) || decide (0x80 ≤ c.toNat)

/-- The text after a comment, if one starts here. -/
def skipComment : List Char → List Char
  | '#' :: rest => rest.dropWhile isCommentChar
  | cs => cs

/-- What follows the rest of a line that holds nothing more than blanks and a comment. -/
def finishLine (cs : List Char) : Option (List Char) :=
  readLineEnd (skipComment (skipBlanks cs))

/-- The text after blanks, line ends and comments; a comment must end with its line. -/
def skipLines : Nat → List Char → List Char
  | 0, cs => cs
  | fuel + 1, cs =>
    match skipBlanks cs with
    | [] => []
    | c :: rest =>
      match readNewline (skipComment (c :: rest)) with
      | some rest => skipLines fuel rest
      | none => c :: rest

/-! ## Texts -/

/-- A character that may stand for itself between double quotes. -/
def isPlainChar (c : Char) : Bool :=
  c == '\t' || decide (0x20 ≤ c.toNat ∧ c.toNat ≤ 0x7E ∧ c ≠ '"' ∧ c ≠ '\\') ||
    decide (0x80 ≤ c.toNat)

/-- A character that may stand between single quotes. -/
def isLiteralChar (c : Char) : Bool :=
  c == '\t' || decide (0x20 ≤ c.toNat ∧ c.toNat ≤ 0x7E ∧ c ≠ '\'') || decide (0x80 ≤ c.toNat)

/-- The number that a row of hexadecimal digits continues, and what follows them. -/
def readHex (n : Nat) : (count : Nat) → List Char → Option (Nat × List Char)
  | 0, cs => some (n, cs)
  | _ + 1, [] => none
  | count + 1, c :: cs =>
    match hexValue? c.toNat with
    | some d => readHex (n * 16 + d) count cs
    | none => none

def readCodePoint (count : Nat) (cs : List Char) : Option (Char × List Char) :=
  match readHex 0 count cs with
  | some (n, rest) => if n.isValidChar then some (Char.ofNat n, rest) else none
  | none => none

def readEscape : List Char → Option (Char × List Char)
  | 'b' :: rest => some ('\x08', rest)
  | 't' :: rest => some ('\t', rest)
  | 'n' :: rest => some ('\n', rest)
  | 'f' :: rest => some ('\x0c', rest)
  | 'r' :: rest => some ('\r', rest)
  | '"' :: rest => some ('"', rest)
  | '\\' :: rest => some ('\\', rest)
  | 'u' :: rest => readCodePoint 4 rest
  | 'U' :: rest => readCodePoint 8 rest
  | _ => none

/-- A text in double quotes on one line, after its opening quote. -/
def readBasic : Nat → List Char → Option (List Char × List Char)
  | 0, _ => none
  | _ + 1, [] => none
  | _ + 1, '"' :: rest => some ([], rest)
  | fuel + 1, '\\' :: rest =>
    match readEscape rest with
    | some (c, rest) => (readBasic fuel rest).map fun (cs, rest) => (c :: cs, rest)
    | none => none
  | fuel + 1, c :: rest =>
    if isPlainChar c then (readBasic fuel rest).map fun (cs, rest) => (c :: cs, rest) else none

/-- A text in single quotes on one line, after its opening quote. -/
def readLiteral : List Char → Option (List Char × List Char)
  | [] => none
  | '\'' :: rest => some ([], rest)
  | c :: rest =>
    if isLiteralChar c then (readLiteral rest).map fun (cs, rest) => (c :: cs, rest) else none

/-- Up to two quotes that stand right before three closing ones belong to the text. -/
def closingQuotes (quote : Char) : List Char → List Char × List Char
  | a :: b :: rest =>
    if a = quote then
      if b = quote then ([quote, quote], rest) else ([quote], b :: rest)
    else ([], a :: b :: rest)
  | [a] => if a = quote then ([quote], []) else ([], [a])
  | [] => ([], [])

/-- What follows a backslash that ends a line: all blanks and line ends after it. -/
def readContinuation (cs : List Char) : Option (List Char) :=
  match readNewline (skipBlanks cs) with
  | some rest => some (go rest.length rest)
  | none => none
where
  /-- The text after blanks and line ends. -/
  go : Nat → List Char → List Char
    | 0, cs => cs
    | fuel + 1, cs =>
      let cs := skipBlanks cs
      match readNewline cs with
      | some rest => go fuel rest
      | none => cs

/-- A text in three double quotes, after the opening ones and a line end right behind them. -/
def readMultiBasic : Nat → List Char → Option (List Char × List Char)
  | 0, _ => none
  | _ + 1, [] => none
  | _ + 1, '"' :: '"' :: '"' :: rest => some (closingQuotes '"' rest)
  | fuel + 1, '"' :: rest => (readMultiBasic fuel rest).map fun (cs, rest) => ('"' :: cs, rest)
  | fuel + 1, '\\' :: rest =>
    match readContinuation rest with
    | some rest => readMultiBasic fuel rest
    | none =>
      match readEscape rest with
      | some (c, rest) => (readMultiBasic fuel rest).map fun (cs, rest) => (c :: cs, rest)
      | none => none
  | fuel + 1, '\r' :: '\n' :: rest =>
    (readMultiBasic fuel rest).map fun (cs, rest) => ('\n' :: cs, rest)
  | fuel + 1, c :: rest =>
    if c == '\n' || isPlainChar c then
      (readMultiBasic fuel rest).map fun (cs, rest) => (c :: cs, rest)
    else none

/-- A text in three single quotes, after the opening ones and a line end right behind them. -/
def readMultiLiteral : List Char → Option (List Char × List Char)
  | [] => none
  | '\'' :: '\'' :: '\'' :: rest => some (closingQuotes '\'' rest)
  | '\'' :: rest => (readMultiLiteral rest).map fun (cs, rest) => ('\'' :: cs, rest)
  | '\r' :: '\n' :: rest => (readMultiLiteral rest).map fun (cs, rest) => ('\n' :: cs, rest)
  | c :: rest =>
    if c == '\n' || isLiteralChar c then
      (readMultiLiteral rest).map fun (cs, rest) => (c :: cs, rest)
    else none

def skipNewline (cs : List Char) : List Char :=
  (readNewline cs).getD cs

def readText : List Char → Option (List Char × List Char)
  | '"' :: '"' :: '"' :: rest =>
    let body := skipNewline rest
    readMultiBasic body.length body
  | '"' :: rest => readBasic rest.length rest
  | '\'' :: '\'' :: '\'' :: rest => readMultiLiteral (skipNewline rest)
  | '\'' :: rest => readLiteral rest
  | _ => none

/-! ## Keys -/

def isBareKeyChar (c : Char) : Bool :=
  let n := c.toNat
  decide (48 ≤ n ∧ n ≤ 57) || decide (65 ≤ n ∧ n ≤ 90) || decide (97 ≤ n ∧ n ≤ 122) ||
    c == '-' || c == '_'

def readKeyPart : List Char → Option (List Char × List Char)
  | '"' :: rest => readBasic rest.length rest
  | '\'' :: rest => readLiteral rest
  | cs =>
    match cs.takeWhile isBareKeyChar with
    | [] => none
    | key => some (key, cs.dropWhile isBareKeyChar)

/-- A key has fewer parts, and a value is nested less deep, than this. -/
def nestingLimit : Nat := 80

/-- The parts of a key with points between them, at most `fuel`; blanks may stand around each. -/
def readKeyParts : Nat → List Char → Option (List String × List Char)
  | 0, _ => none
  | fuel + 1, cs =>
    match readKeyPart (skipBlanks cs) with
    | none => none
    | some (key, rest) =>
      match skipBlanks rest with
      | '.' :: rest =>
        (readKeyParts fuel rest).map fun (keys, rest) => (String.ofList key :: keys, rest)
      | rest => some ([String.ofList key], rest)

def readKey (cs : List Char) : Option (List String × List Char) :=
  readKeyParts (nestingLimit - 1) cs

end HealthRelay.Toml
