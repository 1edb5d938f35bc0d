import HealthRelay.Address

/-!
# Absolute URIs

`http://` with an authority, a path and a query. The authority ends at the first `/`, `?` or `#`,
and a fragment is dropped unread.
-/

namespace HealthRelay.Http

inductive UriError where
  | tooLong
  | invalidCharacter
  | invalidAuthority
  | invalidFormat
deriving DecidableEq, Repr

def UriError.message : UriError → String
  | .tooLong => "uri too long"
  | .invalidCharacter => "invalid uri character"
  | .invalidAuthority => "invalid authority"
  | .invalidFormat => "invalid format"

structure Uri where
  authority : String
  path : String
  query : Option String
deriving DecidableEq, Repr

namespace Uri

def endsAuthority (c : Char) : Bool := c == '/' || c == '?' || c == '#'

/-- Whether a character may stand in an authority. A percent sign is judged apart. -/
def isAuthorityChar (c : Char) : Bool :=
  let n := c.toNat
  decide (48 ≤ n ∧ n ≤ 57) || decide (65 ≤ n ∧ n ≤ 90) || decide (97 ≤ n ∧ n ≤ 122) ||
    "!$&'()*+,-.:;=@[]_~".toList.contains c

/-- What has been seen of an authority. -/
structure Scan where
  /-- Colons since the last `@` or `]`. -/
  colons : Nat := 0
  isOpen : Bool := false
  isClosed : Bool := false
  /-- A percent sign since the last `@` or `]`. -/
  hasPercent : Bool := false
  /-- The last character was an `@`. -/
  endsInAt : Bool := false
deriving DecidableEq, Repr

def maxColons : Nat := 8

/-- One more character of an authority. -/
def Scan.step (s : Scan) (c : Char) : Except UriError Scan :=
  if c = ':' then
    if maxColons ≤ s.colons then .error .invalidAuthority
    else .ok { s with colons := s.colons + 1, endsInAt := false }
  else if c = '[' then
    if s.hasPercent || s.isOpen then .error .invalidAuthority
    else .ok { s with isOpen := true, endsInAt := false }
  else if c = ']' then
    if !s.isOpen || s.isClosed then .error .invalidAuthority
    else .ok { s with colons := 0, isClosed := true, hasPercent := false, endsInAt := false }
  else if c = '@' then .ok { s with colons := 0, hasPercent := false, endsInAt := true }
  else if c = '%' then .ok { s with hasPercent := true, endsInAt := false }
  else if isAuthorityChar c then .ok { s with endsInAt := false }
  else .error .invalidCharacter

def Scan.run (s : Scan) : List Char → Except UriError Scan
  | [] => .ok s
  | c :: cs => (s.step c).bind fun s => s.run cs

/-- Whether an authority may end here. -/
def Scan.isComplete (s : Scan) : Bool :=
  s.isOpen == s.isClosed && decide (s.colons ≤ 1) && !s.endsInAt && !s.hasPercent

def checkAuthority (cs : List Char) : Except UriError Unit :=
  match Scan.run {} cs with
  | .error e => .error e
  | .ok s =>
    if !s.isComplete then .error .invalidAuthority
    else if cs.isEmpty then .error .invalidFormat
    else .ok ()

def isPathChar (c : Char) : Bool :=
  let n := c.toNat
  -- everything beyond ASCII may stand here, but not the control character before it
  n == 0x21 || n == 0x22 || decide (0x24 ≤ n ∧ n ≤ 0x3B) || n == 0x3D ||
    decide (0x40 ≤ n ∧ n ≤ 0x5F) || decide (0x61 ≤ n ∧ n ≤ 0x7E) || decide (0x80 ≤ n)

def isQueryChar (c : Char) : Bool :=
  let n := c.toNat
  n == 0x21 || decide (0x24 ≤ n ∧ n ≤ 0x3B) || n == 0x3D || decide (0x3F ≤ n ∧ n ≤ 0x7E) ||
    decide (0x80 ≤ n)

/-- The query after its question mark, without a fragment. -/
def readQuery (cs : List Char) : Except UriError String :=
  let query := cs.takeWhile (· != '#')
  if query.all isQueryChar then .ok (String.ofList query) else .error .invalidCharacter

/-- What follows an authority: a path, a query and a fragment, each of which may be missing. -/
def readTarget (cs : List Char) : Except UriError (String × Option String) :=
  let path := cs.takeWhile fun c => c != '?' && c != '#'
  if path.all isPathChar then
    let shown := if path.isEmpty then "/" else String.ofList path
    match cs.dropWhile fun c => c != '?' && c != '#' with
    | '?' :: rest => (readQuery rest).map fun query => (shown, some query)
    | _ => .ok (shown, none)
  else .error .invalidCharacter

/-- The longest URI, in bytes. -/
def maxLength : Nat := 65534

/-- The URI of what follows `http://`. -/
def ofChars? (cs : List Char) : Except UriError Uri :=
  let authority := cs.takeWhile fun c => !endsAuthority c
  match checkAuthority authority with
  | .error e => .error e
  | .ok () =>
    (readTarget (cs.dropWhile fun c => !endsAuthority c)).map fun (path, query) =>
      { authority := String.ofList authority, path, query }

def atAddress? (a : Address) (path : String) : Except UriError Uri :=
  let cs := a.chars ++ path.toList
  if maxLength < 7 + (String.ofList cs).utf8ByteSize then .error .tooLong
  else ofChars? cs

def pathAndQuery (u : Uri) : String :=
  match u.query with
  | some query => u.path ++ "?" ++ query
  | none => u.path

def text (u : Uri) : String :=
  "http://" ++ u.authority ++ u.pathAndQuery

example : (atAddress? ⟨"h", 80⟩ "/a?b#c").toOption = some ⟨"h:80", "/a", some "b"⟩ := by
  decide +kernel

example : (atAddress? ⟨"h/i", 80⟩ "/a").toOption = some ⟨"h", "/i:80/a", none⟩ := by decide +kernel

end Uri

end HealthRelay.Http
