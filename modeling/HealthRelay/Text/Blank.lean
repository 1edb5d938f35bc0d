/-!
# White space

The Unicode property White_Space, and trimming by it. Zero-width characters and the byte-order mark
are not white space.
-/

namespace HealthRelay.Text

/-- A character with the property White_Space. -/
def isBlank (c : Char) : Bool :=
  let n := c.toNat
  decide (0x9 ≤ n ∧ n ≤ 0xD) || n == 0x20 || n == 0x85 || n == 0xA0 || n == 0x1680 ||
    decide (0x2000 ≤ n ∧ n ≤ 0x200A) || n == 0x2028 || n == 0x2029 || n == 0x202F ||
    n == 0x205F || n == 0x3000

def trimEnd : List Char → List Char
  | [] => []
  | c :: cs =>
    match trimEnd cs with
    | [] => if isBlank c then [] else [c]
    | d :: ds => c :: d :: ds

def trimStart (cs : List Char) : List Char :=
  cs.dropWhile isBlank

def trim (cs : List Char) : List Char :=
  trimEnd (trimStart cs)

/-- A text of white space alone, or the empty text. -/
def isAllBlank (cs : List Char) : Bool :=
  cs.all isBlank

end HealthRelay.Text
