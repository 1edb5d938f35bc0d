import HealthRelay.Http.Exchange
import HealthRelay.Progress
import HealthRelay.Text.Ascii
import HealthRelay.Text.Hex

/-!
# Answers on the wire

Reads a response from the bytes that have come so far. A head that shows a fault is refused at once;
interim responses are skipped; the body is framed by its status, its transfer encoding, its length
or the end of the connection, in this order.
-/

namespace HealthRelay.Http

open Text

/-- What the start of some bytes holds. -/
inductive Scanned (α : Type) where
  /-- More bytes are needed. -/
  | short
  | bad (fault : WireFault)
  | done (value : α) (rest : List UInt8)
deriving DecidableEq, Repr

/-- Goes on behind what has been read. -/
def Scanned.bind {α β : Type} : Scanned α → (α → List UInt8 → Scanned β) → Scanned β
  | .short, _ => .short
  | .bad fault, _ => .bad fault
  | .done a rest, f => f a rest

structure AnswerHead where
  /-- The number behind `HTTP/1.`. -/
  minor : Nat
  status : Status
  headers : List (List UInt8 × List UInt8)
deriving DecidableEq, Repr

/-- How a body is framed. -/
inductive Framing where
  | empty
  | chunked
  | length (n : Nat)
  | untilEnd
deriving DecidableEq, Repr

namespace AnswerHead

def scanVersion : List UInt8 → Scanned Nat
  | bs =>
    let start := asciiBytes "HTTP/1."
    if start.isPrefixOf bs then
      match bs.drop start.length with
      | [] => .short
      | d :: rest =>
        if d = ascii '0' then .done 0 rest
        else if d = ascii '1' then .done 1 rest
        else .bad .invalidVersion
    else if bs.isPrefixOf start then .short
    else .bad .invalidVersion

def scanSpace : List UInt8 → Scanned Unit
  | [] => .short
  | b :: rest => if b = ascii ' ' then .done () rest else .bad .invalidVersion

/-- The three digits of a status code, none below 100. -/
def scanStatus : List UInt8 → Scanned Status
  | a :: b :: c :: rest =>
    match byteDigit? a, byteDigit? b, byteDigit? c with
    | some a, some b, some c =>
      let code := 100 * a + 10 * b + c
      if 100 ≤ code then .done ⟨code⟩ rest else .bad .invalidStatus
    | _, _, _ => .bad .invalidStatus
  | bs => if bs.all isDigitByte then .short else .bad .invalidStatus

def isFieldByte (b : UInt8) : Bool :=
  b == 9 || decide (32 ≤ b.toNat ∧ b.toNat ≠ 127)

/-- The bytes up to the end of a line, and those behind it. -/
def takeLine : List UInt8 → Option (List UInt8 × List UInt8)
  | [] => none
  | b :: rest =>
    if b = ascii '\n' then some ([], rest)
    else
      match takeLine rest with
      | some (line, after) => some (b :: line, after)
      | none => none

def cutReturn (line : List UInt8) : List UInt8 :=
  if line.getLast? = some (ascii '\r') then line.dropLast else line

/-- What follows the status code on its line. -/
def scanReason (bs : List UInt8) : Scanned Unit :=
  match takeLine bs with
  | none => if (bs.takeWhile (· != ascii '\r')).all isFieldByte then .short else .bad .invalidStatus
  | some (line, rest) =>
    match cutReturn line with
    | [] => .done () rest
    | b :: reason =>
      if b = ascii ' ' && reason.all isFieldByte then .done () rest else .bad .invalidStatus

def isNameByte (b : UInt8) : Bool :=
  isAlnumByte b || (asciiBytes "!#$%&'*+-.^_`|~").contains b

def lower (b : UInt8) : UInt8 :=
  if 65 ≤ b.toNat ∧ b.toNat ≤ 90 then UInt8.ofNat (b.toNat + 32) else b

def trimValue (bs : List UInt8) : List UInt8 :=
  let isBlank (b : UInt8) : Bool := b == 32 || b == 9
  ((bs.dropWhile isBlank).reverse.dropWhile isBlank).reverse

/-- The name, in lower case, and the value of a header line. -/
def readHeader? (line : List UInt8) : Option (List UInt8 × List UInt8) :=
  let name := line.takeWhile (· != ascii ':')
  match line.drop name.length with
  | _ :: value =>
    if !name.isEmpty && name.all isNameByte && value.all isFieldByte then
      some (name.map lower, trimValue value)
    else none
  | [] => none

/-- The header lines up to the empty one, at most `fuel`. -/
def scanHeaders : Nat → List UInt8 → Scanned (List (List UInt8 × List UInt8))
  | 0, _ => .short
  | fuel + 1, bs =>
    match takeLine bs with
    | none => .short
    | some (line, rest) =>
      match cutReturn line with
      | [] => .done [] rest
      | line =>
        match readHeader? line with
        | none => .bad .invalidHeader
        | some header =>
          (scanHeaders fuel rest).bind fun headers rest => .done (header :: headers) rest

/-- The head of a response, with empty lines in front of it left out. -/
def scan (bs : List UInt8) : Scanned AnswerHead :=
  let bs := bs.dropWhile fun b => b == ascii '\r' || b == ascii '\n'
  (scanVersion bs).bind fun minor bs =>
    (scanSpace bs).bind fun _ bs =>
      (scanStatus bs).bind fun status bs =>
        (scanReason bs).bind fun _ bs =>
          (scanHeaders (bs.length + 1) bs).bind fun headers rest =>
            .done ⟨minor, status, headers⟩ rest

def values (h : AnswerHead) (name : String) : List (List UInt8) :=
  (h.headers.filter fun header => header.1 == asciiBytes name).map (·.2)

def isInterim (h : AnswerHead) : Bool :=
  h.status.code < 200 && h.status.code != 101

def commaParts (bs : List UInt8) : List (List UInt8) :=
  (bs.splitOn (ascii ',')).map trimValue

/-- The largest length that a header may give. -/
def maxLength : Nat := 18446744073709551615

def readLength? (bs : List UInt8) : Option Nat :=
  if bs.isEmpty then none
  else
    (bs.foldl (fun n b => n.bind fun n => (byteDigit? b).map (10 * n + ·)) (some 0)).filter
      (· ≤ maxLength)

/-- The length that all values agree on. -/
def readLengths? (values : List (List UInt8)) : Option Nat :=
  match (values.flatMap commaParts).map readLength? with
  | some n :: rest => if rest.all (· == some n) then some n else none
  | _ => none

def framing (h : AnswerHead) : Except WireFault Framing :=
  if h.status.code = 101 ∨ h.status.code = 204 ∨ h.status.code = 304 then .ok .empty
  else
    match (h.values "transfer-encoding").getLast? with
    | some value =>
      if h.minor = 0 then .error .unexpectedEncoding
      else if ((commaParts value).getLast?.map (·.map lower)) = some (asciiBytes "chunked") then
        .ok .chunked
      else .ok .untilEnd
    | none =>
      match h.values "content-length" with
      | [] => .ok .untilEnd
      | values =>
        match readLengths? values with
        | some n => .ok (.length n)
        | none => .error .invalidLength

end AnswerHead

namespace Framing

open AnswerHead

/-- The size that a chunk's first line gives, extensions aside. -/
def chunkSize? (line : List UInt8) : Option Nat :=
  let digits := line.takeWhile fun b => (hexValue? b.toNat).isSome
  match line.drop digits.length with
  | b :: _ =>
    if digits.isEmpty || !(b == ascii ';' || b == ascii ' ' || b == ascii '\t') then none
    else some (value digits)
  | [] => if digits.isEmpty then none else some (value digits)
where
  value (digits : List UInt8) : Nat :=
    digits.foldl (fun n b => 16 * n + (hexValue? b.toNat).getD 0) 0

/-- The lines behind the last chunk, up to the empty one. -/
def scanTrailers : Nat → List UInt8 → Scanned Unit
  | 0, _ => .short
  | fuel + 1, bs =>
    match takeLine bs with
    | none => .short
    | some (line, rest) =>
      if (cutReturn line).isEmpty then .done () rest else scanTrailers fuel rest

/-- The chunks of a body, at most `fuel`. -/
def scanChunks : Nat → List UInt8 → Scanned (List UInt8)
  | 0, _ => .short
  | fuel + 1, bs =>
    match takeLine bs with
    | none => .short
    | some (line, rest) =>
      match chunkSize? (cutReturn line) with
      | none => .bad .bodyCut
      | some 0 => (scanTrailers (rest.length + 1) rest).bind fun _ rest => .done [] rest
      | some n =>
        if rest.length < n then .short
        else
          match rest.drop n with
          | 13 :: 10 :: after =>
            (scanChunks fuel after).bind fun more after => .done (rest.take n ++ more) after
          | [] => .short
          | [13] => .short
          | _ => .bad .bodyCut

/-- A body from the bytes that have come so far. -/
def scanBody (f : Framing) (bs : List UInt8) (isEnded : Bool) : Scanned (List UInt8) :=
  match f with
  | .empty => .done [] bs
  | .chunked => scanChunks (bs.length + 1) bs
  | .length n => if bs.length < n then .short else .done (bs.take n) (bs.drop n)
  | .untilEnd => if isEnded then .done bs [] else .short

end Framing

namespace Response

/-- Reads a response from the bytes that have come so far, given whether the connection has ended.
Interim responses in front of it are skipped, at most `fuel`. -/
def readWithin : Nat → List UInt8 → Bool → Progress Exchange
  | 0, _, _ => .pending
  | fuel + 1, bs, isEnded =>
    match AnswerHead.scan bs with
    | .short => if isEnded then .ready (.error (.broken .closedEarly)) else .pending
    | .bad fault => .ready (.error (.broken fault))
    | .done head rest =>
      if head.isInterim then readWithin fuel rest isEnded
      else
        match head.framing with
        | .error fault => .ready (.error (.broken fault))
        | .ok framing =>
          match framing.scanBody rest isEnded with
          | .short => if isEnded then .ready (.error (.broken .bodyCut)) else .pending
          | .bad fault => .ready (.error (.broken fault))
          | .done body _ => .ready (.ok ⟨head.status, body⟩)

/-- Reads a response from the bytes that have come so far. -/
def read (bs : List UInt8) (isEnded : Bool) : Progress Exchange :=
  readWithin (bs.length + 1) bs isEnded

example : read (asciiBytes "HTTP/1.1 200 OK\r\ncontent-length: 2\r\n\r\nhi") false =
    .ready (.ok ⟨⟨200⟩, asciiBytes "hi"⟩) := by cbv

example : read (asciiBytes "HTTP/1.1 200 OK\r\ncontent-length: 2\r\n\r\nh") false = .pending := by
  cbv

example : read (asciiBytes "HTTP/1.1 200 OK\r\ncontent-length: 2\r\n\r\nh") true =
    .ready (.error (.broken .bodyCut)) := by cbv

example :
    read (asciiBytes "HTTP/1.1 200 \r\nTransfer-Encoding: chunked\r\n\r\n1\r\na\r\n0\r\n\r\n")
      false = .ready (.ok ⟨⟨200⟩, asciiBytes "a"⟩) := by cbv

end Response

end HealthRelay.Http
