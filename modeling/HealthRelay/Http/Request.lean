import HealthRelay.Http.Uri
import HealthRelay.Text.Ascii
import HealthRelay.Text.Utf8

/-!
# Requests

A request is built step by step, and the first step that fails decides its error: the URI comes
before the headers, the headers come in order.
-/

namespace HealthRelay.Http

structure Method where
  token : String
deriving DecidableEq, Repr

namespace Method

def get : Method := ⟨"GET"⟩

def post : Method := ⟨"POST"⟩

def isTokenChar (c : Char) : Bool :=
  let n := c.toNat
  decide (48 ≤ n ∧ n ≤ 57) || decide (65 ≤ n ∧ n ≤ 90) || decide (97 ≤ n ∧ n ≤ 122) ||
    "!#$%&'*+-.^_`|~".toList.contains c

/-- The method of a text: one or more token characters, in any case. -/
def ofText? (s : String) : Option Method :=
  if !s.isEmpty && s.toList.all isTokenChar then some ⟨s⟩ else none

def invalid : String := "invalid HTTP method"

end Method

structure Header where
  name : String
  value : String
deriving DecidableEq, Repr

namespace Header

/-- Whether a character may stand in a header's value: a tab, or anything that is no control. -/
def isValueChar (c : Char) : Bool :=
  c == '\t' || decide (0x20 ≤ c.toNat ∧ c.toNat ≠ 0x7F)

def isValue (s : String) : Bool := s.toList.all isValueChar

def line (h : Header) : List UInt8 :=
  Text.Utf8.encode (h.name.toList ++ ':' :: ' ' :: h.value.toList ++ ['\r', '\n'])

end Header

inductive RequestError where
  | uri (cause : UriError)
  | headerValue
deriving DecidableEq, Repr

def RequestError.message : RequestError → String
  | .uri cause => cause.message
  | .headerValue => "failed to parse header value"

structure Request where
  method : Method
  /-- Where the connection goes. -/
  address : Address
  uri : Uri
  headers : List Header
  body : List UInt8
deriving DecidableEq, Repr

namespace Request

def userAgent : String := "beacon/0.1.0"

def withHeader (r : Request) (name value : String) : Except RequestError Request :=
  if Header.isValue value then .ok { r with headers := r.headers ++ [⟨name, value⟩] }
  else .error .headerValue

/-- A request for a path at an address, with the host and the sender in its headers. -/
def start (method : Method) (address : Address) (path : String) : Except RequestError Request :=
  match Uri.atAddress? address path with
  | .error cause => .error (.uri cause)
  | .ok uri => do
    let r ← Request.withHeader ⟨method, address, uri, [], []⟩ "host" address.text
    r.withHeader "user-agent" userAgent

def headerBlock (r : Request) : List UInt8 :=
  r.headers.flatMap Header.line

/-- The first line, which names the absolute URI. -/
def firstLine (r : Request) : String :=
  r.method.token ++ " " ++ r.uri.text ++ " HTTP/1.1"

/-- The bytes that are sent; a body is announced with its length. -/
def bytes (r : Request) : List UInt8 :=
  let length : List UInt8 :=
    if r.body.isEmpty then []
    else Header.line ⟨"content-length", Text.decimalText r.body.length⟩
  Text.Utf8.encode r.firstLine.toList ++ Text.asciiBytes "\r\n" ++ r.headerBlock ++ length ++
    Text.asciiBytes "\r\n" ++ r.body

end Request

end HealthRelay.Http
