import HealthRelay.Session

/-!
# The watcher

Follows the phases of a session. It sees the newest phase at each turn, so it may miss one that was
replaced before it looked; it stops once the session is gone and it has seen the last one.
-/

namespace HealthRelay

structure Watcher where
  /-- The phases it has seen, in order; none before its first turn. -/
  seen : List Phase
  /-- How many phases had been written when it last looked. -/
  version : Nat
  isDone : Bool
deriving DecidableEq, Repr

namespace Watcher

def start : Watcher := ⟨[], 0, false⟩

def last (w : Watcher) : Phase := w.seen.getLast?.getD .init

def poll (w : Watcher) (isGone : Bool) (s : Session) : Watcher :=
  let fresh := w.seen.isEmpty || w.version != s.written.length
  let seen := if fresh then w.seen ++ [s.phase] else w.seen
  if w.isDone then w else { seen, version := s.written.length, isDone := isGone }

end Watcher

end HealthRelay
