import HealthRelay.Toml.Lexical

/-!
# Writing TOML texts

A text is written in the plainest of five styles that can hold it: double quotes, single quotes,
three double quotes, three single quotes, and last double quotes with escapes.
-/

namespace HealthRelay.Toml

open Text

/-- A control character that no style can hold as it is. Tabs and line ends are not among them. -/
def needsCode (c : Char) : Bool :=
  (decide (c.toNat < 0x20) && c != '\t' && c != '\n') || c == '\x7f'

/-- Whether at least `n` more of a character stand in a row somewhere, `run` having just passed. -/
def hasRun (c : Char) (n : Nat) : (run : Nat) → List Char → Bool
  | run, [] => decide (n ≤ run)
  | run, d :: ds => decide (n ≤ run) || hasRun c n (if d = c then run + 1 else 0) ds

inductive Style where
  | basic
  | literal
  | multiBasic
  | multiLiteral
deriving DecidableEq, Repr

/-- The plainest style that can hold a text. -/
def Style.of (cs : List Char) : Style :=
  let coded := cs.any needsCode
  let lines := cs.contains '\n'
  if !coded && !cs.contains '\\' && !cs.contains '"' && !lines then .basic
  else if !coded && !cs.contains '\'' && !lines then .literal
  else if !coded && !cs.contains '\\' && !hasRun '"' 3 0 cs then .multiBasic
  else if !coded && !hasRun '\'' 3 0 cs then .multiLiteral
  else if lines then .multiBasic
  else .basic

def codeEscape (c : Char) : List Char :=
  ['\\', 'u', '0', '0', hexDigitUpper (c.toNat / 16), hexDigitUpper (c.toNat % 16)]

/-- One character between double quotes, a quote aside. -/
def writeChar (multi : Bool) (c : Char) : List Char :=
  match c with
  | '\x08' => ['\\', 'b']
  | '\t' => ['\\', 't']
  | '\n' => if multi then ['\n'] else ['\\', 'n']
  | '\x0c' => ['\\', 'f']
  | '\r' => ['\\', 'r']
  | '\\' => ['\\', '\\']
  | _ => if needsCode c then codeEscape c else [c]

/-- A text between double quotes; of quotes in a row as many as `allowed` stand as they are. -/
def writeBasic (multi : Bool) (allowed : Nat) : (run : Nat) → List Char → List Char
  | _, [] => []
  | run, c :: cs =>
    if c = '"' then
      if run < allowed then '"' :: writeBasic multi allowed (run + 1) cs
      else '\\' :: '"' :: writeBasic multi allowed 0 cs
    else writeChar multi c ++ writeBasic multi allowed 0 cs

/-- The line end that follows the opening quotes of a text of several lines. -/
def opening (cs : List Char) : List Char :=
  if cs.contains '\n' then ['\n'] else []

def writeText (cs : List Char) : List Char :=
  match Style.of cs with
  | .basic => '"' :: writeBasic false 0 0 cs ++ ['"']
  | .literal => '\'' :: cs ++ ['\'']
  | .multiBasic => ['"', '"', '"'] ++ opening cs ++ writeBasic true 2 0 cs ++ ['"', '"', '"']
  | .multiLiteral => ['\'', '\'', '\''] ++ opening cs ++ cs ++ ['\'', '\'', '\'']

def writeLine (key : String) (text : String) : List Char :=
  key.toList ++ [' ', '=', ' '] ++ writeText text.toList ++ ['\n']

def writeOptionalLine (key : String) : Option String → List Char
  | some text => writeLine key text
  | none => []

def writeHeader (name : String) : List Char :=
  '[' :: name.toList ++ [']', '\n']

example : writeText ['a'] = ['"', 'a', '"'] := by decide +kernel

example : writeText ['"'] = ['\'', '"', '\''] := by decide +kernel

example : writeText ['"', '\''] = ['"', '"', '"', '"', '\'', '"', '"', '"'] := by decide +kernel

example : writeText ['\x1f'] = ['"', '\\', 'u', '0', '0', '1', 'F', '"'] := by decide +kernel

end HealthRelay.Toml
