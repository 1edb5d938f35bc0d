import HealthRelay.Text.Hex
import HealthRelay.Text.Unprintable
import HealthRelay.Text.GraphemeExtend

/-!
# Quoted text

How messages show a text that a user gave: between double quotes, with escapes for the quote, the
backslash, the common controls, and every character that would not show by itself.
-/

namespace HealthRelay.Text

/-- An escape by code point, `\u` and the lower-case hexadecimal number in braces. -/
def codePointEscape (c : Char) : List Char :=
  ['\\', 'u', '\x7b'] ++ hexLower c.toNat ++ ['\x7d']

def quoteChar (c : Char) : List Char :=
  match c with
  | '\x00' => ['\\', '0']
  | '\t' => ['\\', 't']
  | '\r' => ['\\', 'r']
  | '\n' => ['\\', 'n']
  | '\\' => ['\\', '\\']
  | '"' => ['\\', '"']
  | _ => if extendsGrapheme c || isUnprintable c then codePointEscape c else [c]

/-- A text between double quotes, with escapes where it would not show. -/
def quote (s : String) : String :=
  String.ofList ('"' :: s.toList.flatMap quoteChar ++ ['"'])

example : quote "a\"'" = "\"a\\\"'\"" := by decide +kernel

example : quote "\x7f" = "\"\\u\x7b7f\x7d\"" := by decide +kernel

end HealthRelay.Text
