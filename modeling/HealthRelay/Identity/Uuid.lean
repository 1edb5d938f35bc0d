import HealthRelay.Text.Hex

/-!
# Time-ordered unique identifiers

Version 7 identifiers: 48 bits of milliseconds, 42 bits of a counter and 32 random bits, around the
six bits of version and variant. Within one millisecond the counter goes up by one.
-/

namespace HealthRelay

structure Uuid where
  bits : Nat
deriving DecidableEq, Repr

namespace Uuid

/-- The identifier of a millisecond, a counter and a row of random bits. -/
def version7 (ms counter random : Nat) : Uuid :=
  let high := counter / Nat.pow 2 30 % Nat.pow 2 12
  let low := counter % Nat.pow 2 30
  ⟨(ms % Nat.pow 2 48) * Nat.pow 2 80 + 7 * Nat.pow 2 76 + high * Nat.pow 2 64 +
    Nat.pow 2 63 + low * Nat.pow 2 32 + random % Nat.pow 2 32⟩

def version (u : Uuid) : Nat :=
  u.bits / Nat.pow 2 76 % 16

/-- The `n`-th hexadecimal digit, from the left. -/
def digit (u : Uuid) (n : Nat) : Char :=
  Text.hexDigitLower (u.bits / Nat.pow 16 (31 - n) % 16)

def digits (u : Uuid) (start count : Nat) : List Char :=
  (List.range count).map fun i => u.digit (start + i)

/-- The text of an identifier: 32 digits in groups of 8, 4, 4, 4 and 12. -/
def text (u : Uuid) : String :=
  String.ofList (u.digits 0 8 ++ '-' :: u.digits 8 4 ++ '-' :: u.digits 12 4 ++
    '-' :: u.digits 16 4 ++ '-' :: u.digits 20 12)

/-- The last identifier's millisecond and counter. -/
structure Clock where
  ms : Nat
  counter : Nat
deriving DecidableEq, Repr

def Clock.start : Clock := ⟨0, 0⟩

/-- The clock's next value. A new millisecond starts the counter at 41 random bits; in the same one,
or when time went back, the counter goes up, into the next millisecond if it has to. -/
def Clock.next (c : Clock) (now seed : Nat) : Clock :=
  if c.ms < now then ⟨now, seed % Nat.pow 2 41⟩
  else if c.counter + 1 < Nat.pow 2 42 then ⟨c.ms, c.counter + 1⟩
  else ⟨c.ms + 1, seed % Nat.pow 2 41⟩

/-- The next identifier at a time, with random bits for its counter and its end. -/
def next (c : Clock) (now seed random : Nat) : Uuid × Clock :=
  let c := c.next now seed
  (version7 c.ms c.counter random, c)

/-- Identifiers made one after the other, each at its time and with its random bits. -/
def nextAll (c : Clock) : List (Nat × Nat × Nat) → List Uuid
  | [] => []
  | (now, seed, random) :: rest =>
    let (u, c) := next c now seed random
    u :: nextAll c rest

example : (version7 0x018F22E279B0 (0xCC3 * Nat.pow 2 30 + 0x18C4DC0C) 0x0C07398F).text =
    "018f22e2-79b0-7cc3-98c4-dc0c0c07398f" := by decide +kernel

end Uuid

end HealthRelay
