/-!
# Virtual clocks

Tasks on a clock that stands still while any of them can go on. Once a round of turns changes
nothing, the clock jumps to the next timer; without one the run is over.
-/

namespace HealthRelay.Simulation

/-- Tasks over a common state. Times are nanoseconds. -/
structure Clockwork (σ : Type) where
  /-- Every task has one turn, in a fixed order. -/
  round : Nat → σ → σ
  /-- When some task may next have something to do; times that have passed do not count. -/
  timers : σ → List Nat

namespace Clockwork

variable {σ : Type} [DecidableEq σ]

/-- The first timer after now. -/
def next (c : Clockwork σ) (now : Nat) (s : σ) : Option Nat :=
  ((c.timers s).filter fun t => decide (now < t)).min?

/-- Runs all tasks until nothing is left to wait for, at most `fuel` rounds and jumps. -/
def run (c : Clockwork σ) : Nat → Nat → σ → σ
  | 0, _, s => s
  | fuel + 1, now, s =>
    let after := c.round now s
    if after = s then
      match c.next now s with
      | some t => c.run fuel t s
      | none => s
    else c.run fuel now after

/-- More rounds and jumps than any script asks for. -/
def patience : Nat := 10000000

def start (c : Clockwork σ) (s : σ) : σ := c.run patience 0 s

end Clockwork

end HealthRelay.Simulation
