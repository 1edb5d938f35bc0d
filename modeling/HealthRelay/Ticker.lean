import HealthRelay.Duration

/-!
# Tickers

A ticker is due at its start and then at every multiple of its period. A tick that is seen more than
five milliseconds late makes the next one the first multiple after now; ticks missed on the way are
dropped.
-/

namespace HealthRelay

/-- A plan of ticks. Times are nanoseconds on the clock. -/
structure Ticker where
  period : Duration
  due : Nat
deriving DecidableEq, Repr

namespace Ticker

/-- How late a tick may be seen without changing the plan. -/
def slack : Duration := .ofMillis 5

def start (period : Duration) (now : Nat) : Ticker := ⟨period, now⟩

/-- When the tick after the one that is due, and seen now, will be due. -/
def after (t : Ticker) (now : Nat) : Nat :=
  if t.due + slack.nanos < now then now + t.period.nanos - (now - t.due) % t.period.nanos
  else t.due + t.period.nanos

/-- Waits for the next tick: the ticker with its plan after it, if it is due. -/
def look (t : Ticker) (now : Nat) : Option Ticker :=
  if t.due ≤ now then some { t with due := t.after now } else none

example : after ⟨.ofMillis 100, 0⟩ (Duration.ofMillis 5).nanos = (Duration.ofMillis 100).nanos := by
  decide +kernel

example :
    after ⟨.ofMillis 100, 0⟩ (Duration.ofMillis 230).nanos = (Duration.ofMillis 300).nanos := by
  decide +kernel

end Ticker

end HealthRelay
