import HealthRelay.Toml.Lexical

/-!
# TOML scalars other than texts

Booleans, whole numbers, floating-point numbers, dates and times. They are checked in full but their
values are not kept, since a configuration holds texts only.
-/

namespace HealthRelay.Toml

open Text

/-- The kinds of scalars other than texts. -/
inductive Scalar where
  | boolean
  | integer
  | float
  | date
deriving DecidableEq, Repr

/-- Digits with single underscores between them: the digits, and what follows. -/
def readDigitsAfter (isDigit : Char → Bool) : List Char → Option (List Char × List Char)
  | [] => some ([], [])
  | '_' :: [] => none
  | '_' :: d :: rest =>
    if isDigit d then (readDigitsAfter isDigit rest).map fun (ds, rest) => (d :: ds, rest) else none
  | c :: rest =>
    if isDigit c then (readDigitsAfter isDigit rest).map fun (ds, rest) => (c :: ds, rest)
    else some ([], c :: rest)

/-- One digit, then more with single underscores between them. -/
def readDigitRun (isDigit : Char → Bool) : List Char → Option (List Char × List Char)
  | [] => none
  | c :: rest =>
    if isDigit c then (readDigitsAfter isDigit rest).map fun (ds, rest) => (c :: ds, rest) else none

def isDecimal (c : Char) : Bool := decide (48 ≤ c.toNat ∧ c.toNat ≤ 57)

def isHex (c : Char) : Bool := (hexValue? c.toNat).isSome

def isOctal (c : Char) : Bool := decide (48 ≤ c.toNat ∧ c.toNat ≤ 55)

def isBinary (c : Char) : Bool := c == '0' || c == '1'

def valueIn (base : Nat) (ds : List Char) : Nat :=
  ds.foldl (fun n d => n * base + (hexValue? d.toNat).getD 0) 0

/-- A sign, if there is one: whether it is a minus, and what follows. -/
def readSign : List Char → Bool × List Char
  | '-' :: rest => (true, rest)
  | '+' :: rest => (false, rest)
  | cs => (false, cs)

/-- The digits of a whole number: a zero, or a row that does not start with one. -/
def readWholeDigits : List Char → Option (List Char × List Char)
  | '0' :: rest => some (['0'], rest)
  | cs => readDigitRun isDecimal cs

def maxInteger : Nat := 9223372036854775807

/-- A whole number with a base mark, after the mark. -/
def readBased (isDigit : Char → Bool) (base : Nat) (cs : List Char) :
    Option (Scalar × List Char) :=
  match readDigitRun isDigit cs with
  | some (ds, rest) => if valueIn base ds ≤ maxInteger then some (.integer, rest) else none
  | none => none

def readInteger : List Char → Option (Scalar × List Char)
  | '0' :: 'x' :: rest => readBased isHex 16 rest
  | '0' :: 'o' :: rest => readBased isOctal 8 rest
  | '0' :: 'b' :: rest => readBased isBinary 2 rest
  | cs =>
    let (negated, cs) := readSign cs
    match readWholeDigits cs with
    | some (ds, rest) =>
      let limit := if negated then maxInteger + 1 else maxInteger
      if valueIn 10 ds ≤ limit then some (.integer, rest) else none
    | none => none

/-- The digits of a fraction, if a point stands here. -/
def readFraction : List Char → Option (List Char × List Char)
  | '.' :: rest => readDigitRun isDecimal rest
  | cs => some ([], cs)

def readExponent : List Char → Option (Int × List Char)
  | c :: rest =>
    if c == 'e' || c == 'E' then
      let (negated, rest) := readSign rest
      (readDigitRun isDecimal rest).map fun (ds, rest) =>
        let e : Int := valueIn 10 ds
        (if negated then -e else e, rest)
    else some (0, c :: rest)
  | [] => some (0, [])

/-- Where floating-point numbers end: numbers from here on are infinite. -/
def infiniteFrom : Nat := Nat.pow 2 1024 - Nat.pow 2 970

/-- Whether `digits * 10 ^ exponent` is too large for a floating-point number. -/
def isInfinite (digits : List Char) (exponent : Int) : Bool :=
  let n := valueIn 10 digits
  let size : Int := (decimal n).length + exponent
  if n = 0 then false
  else if 310 < size then true
  else if size < 300 then false
  else if 0 ≤ exponent then decide (infiniteFrom ≤ n * Nat.pow 10 exponent.toNat)
  else decide (infiniteFrom * Nat.pow 10 (-exponent).toNat ≤ n)

/-- A number with a fraction or an exponent; positive ones must be finite. -/
def readFloat (cs : List Char) : Option (Scalar × List Char) := do
  let (negated, cs) := readSign cs
  let (whole, rest) ← readWholeDigits cs
  match rest with
  | c :: _ =>
    if c == '.' || c == 'e' || c == 'E' then
      let (fraction, rest) ← readFraction rest
      let (exponent, rest) ← readExponent rest
      if !negated && isInfinite (whole ++ fraction) (exponent - fraction.length) then none
      else some (.float, rest)
    else none
  | [] => none

/-- What follows a word, if it stands here. -/
def readWord : List Char → List Char → Option (List Char)
  | [], cs => some cs
  | _ :: _, [] => none
  | w :: ws, c :: cs => if w = c then readWord ws cs else none

/-- A signed infinity, or a signed value that is no number. -/
def readSpecial (cs : List Char) : Option (Scalar × List Char) :=
  let cs := (readSign cs).2
  match readWord ['i', 'n', 'f'] cs with
  | some rest => some (.float, rest)
  | none => (readWord ['n', 'a', 'n'] cs).map fun rest => (.float, rest)

/-! ## Dates and times -/

/-- A number of exactly `count` digits. -/
def readFixed (count : Nat) (cs : List Char) : Option (Nat × List Char) :=
  let ds := cs.take count
  if ds.length = count ∧ ds.all isDecimal then some (valueIn 10 ds, cs.drop count) else none

/-- A number of two digits between two bounds. -/
def readTwo (low high : Nat) (cs : List Char) : Option (Nat × List Char) :=
  match readFixed 2 cs with
  | some (n, rest) => if low ≤ n ∧ n ≤ high then some (n, rest) else none
  | none => none

def daysIn (year month : Nat) : Nat :=
  if month = 2 then
    if year % 4 = 0 ∧ (year % 100 ≠ 0 ∨ year % 400 = 0) then 29 else 28
  else if month = 4 ∨ month = 6 ∨ month = 9 ∨ month = 11 then 30
  else 31

def readDate (cs : List Char) : Option (List Char) := do
  let (year, cs) ← readFixed 4 cs
  let cs ← readWord ['-'] cs
  let (month, cs) ← readTwo 1 12 cs
  let cs ← readWord ['-'] cs
  let (_, cs) ← readTwo 1 (daysIn year month) cs
  some cs

def readTimeOfDay (cs : List Char) : Option (List Char) := do
  let (_, cs) ← readTwo 0 23 cs
  let cs ← readWord [':'] cs
  let (_, cs) ← readTwo 0 59 cs
  let cs ← readWord [':'] cs
  let (_, cs) ← readTwo 0 60 cs
  match cs with
  | '.' :: d :: rest =>
    if isDecimal d then some (rest.dropWhile isDecimal) else some ('.' :: d :: rest)
  | cs => some cs

/-- What follows an offset from universal time, if one stands here. -/
def readOffset (cs : List Char) : Option (List Char) :=
  match cs with
  | c :: rest =>
    if c == 'Z' || c == 'z' then some rest
    else if c == '+' || c == '-' then do
      let (_, rest) ← readTwo 0 23 rest
      let rest ← readWord [':'] rest
      let (_, rest) ← readTwo 0 59 rest
      some rest
    else some cs
  | [] => some []

def readDateTime (cs : List Char) : Option (Scalar × List Char) :=
  match readDate cs with
  | some rest =>
    match rest with
    | c :: after =>
      if c == 'T' || c == 't' || c == ' ' then
        match readTimeOfDay after with
        | some after => (readOffset after).map fun rest => (.date, rest)
        | none => some (.date, rest)
      else some (.date, rest)
    | [] => some (.date, [])
  | none => (readTimeOfDay cs).map fun rest => (.date, rest)

def readNumeric (cs : List Char) : Option (Scalar × List Char) :=
  match readDateTime cs with
  | some r => some r
  | none =>
    match readFloat cs with
    | some r => some r
    | none =>
      match readSpecial cs with
      | some r => some r
      | none => readInteger cs

def readScalar : List Char → Option (Scalar × List Char)
  | 't' :: rest => (readWord ['r', 'u', 'e'] rest).map fun rest => (.boolean, rest)
  | 'f' :: rest => (readWord ['a', 'l', 's', 'e'] rest).map fun rest => (.boolean, rest)
  | cs => readNumeric cs

end HealthRelay.Toml
