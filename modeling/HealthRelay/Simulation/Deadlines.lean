import HealthRelay.Scope
import HealthRelay.Token

/-!
# Deadlines by hand

Named tokens and scopes on a virtual clock. The clock stands still while anything can go on; once
everything waits it jumps to the next timer. Cancellations in the background start counting when the
caller first waits after they were asked for, and a timer that is due wakes the caller before them.
-/

namespace HealthRelay.Simulation

/-- A cancellation in the background. -/
structure Later where
  token : String
  /-- The wait in nanoseconds. -/
  delay : Nat
  /-- When it is due, once it has begun to wait. -/
  due : Option Nat
  /-- Whether its timer has fired. -/
  isAwake : Bool
deriving DecidableEq, Repr

/-- Work for a scope: a value after a wait, or never. -/
inductive Work where
  | ready
  | sleep (nanos : Nat)
  | never
deriving DecidableEq, Repr

inductive DeadlineAction where
  | token (name : String)
  | child (name parent : String)
  | enter (id parent : String) (budget : Duration)
  | cancel (name : String)
  | leave (id : String)
  | advance (nanos : Nat)
  | run (id : String) (work : Work) (cancel : Option (String × Nat))
deriving DecidableEq, Repr

structure NamedScope where
  id : String
  parent : String
  scope : Scope
deriving DecidableEq, Repr

/-- Tokens, scopes that have not been left, and the clock. -/
structure Deadlines where
  now : Nat
  tokens : TokenTree String
  scopes : List NamedScope
  background : List Later
deriving DecidableEq, Repr

namespace Deadlines

def start : Deadlines := { now := 0, tokens := [], scopes := [], background := [] }

/-- The name of a scope's own token. -/
def tokenOf (id : String) : String := "scope:" ++ id

def scope? (d : Deadlines) (id : String) : Option NamedScope :=
  d.scopes.find? fun s => s.id == id

/-- The background gets its turn: what is awake fires, and what has not begun to wait begins. -/
def takeTurns (d : Deadlines) : Deadlines :=
  let turn (b : Later) : Bool × Later :=
    match b.due with
    | some _ => (b.isAwake, b)
    | none => (b.delay == 0, { b with due := some (d.now + b.delay) })
  let turned := d.background.map turn
  { d with
    tokens := (turned.filter (·.1)).foldl (fun ts b => ts.fire b.2.token) d.tokens
    background := (turned.filter (!·.1)).map (·.2) }

/-- The clock at a later time, with every timer that is due by then awake. -/
def wake (d : Deadlines) (now : Nat) : Deadlines :=
  { d with
    now
    background := d.background.map fun b =>
      match b.due with
      | some due => if due ≤ now then { b with isAwake := true } else b
      | none => b }

def nextBackground (d : Deadlines) : Option Nat :=
  (d.background.filterMap (·.due)).min?

def earlier : Option Nat → Option Nat → Option Nat
  | some a, some b => some (min a b)
  | some a, none => some a
  | none, b => b

def lookAt (work : Work) (began now : Nat) : Progress Unit :=
  match work with
  | .ready => .ready ()
  | .sleep nanos => if began + nanos ≤ now then .ready () else .pending
  | .never => .pending

def workTimer (work : Work) (began : Nat) : Option Nat :=
  match work with
  | .sleep nanos => some (began + nanos)
  | _ => none

/-- Runs work inside a scope until it ends, at most `fuel` looks. -/
def drive (s : NamedScope) (work : Work) (began : Nat) :
    Nat → Deadlines → Option (Except Failure Unit) × Deadlines
  | 0, d => (none, d)
  | fuel + 1, d =>
    let cancelled := d.tokens.isCancelled (tokenOf s.id)
    match s.scope.run d.now cancelled (fun () => ((), lookAt work began d.now)) () with
    | (_, .ready outcome) => (some outcome, d)
    | (_, .pending) =>
      let turned := d.takeTurns
      if turned.tokens.isCancelled (tokenOf s.id) then drive s work began fuel turned
      else
        let next := earlier (some s.scope.wakeAt)
          (earlier (workTimer work began) turned.nextBackground)
        match next with
        | some t => drive s work began fuel (turned.wake (max t turned.now))
        | none => (none, turned)

structure Ran where
  outcome : Except Failure Unit
  took : Nat

/-- An action, with what it brings about if it is a run. -/
def step (d : Deadlines) : DeadlineAction → Option Ran × Deadlines
  | .token name => (none, { d with tokens := d.tokens.add name none })
  | .child name parent => (none, { d with tokens := d.tokens.add name (some parent) })
  | .enter id parent budget =>
    (none, { d with
      tokens := d.tokens.add (tokenOf id) (some parent)
      scopes := d.scopes.filter (fun s => s.id != id) ++ [⟨id, parent, .start d.now budget⟩] })
  | .cancel name => (none, { d with tokens := d.tokens.fire name })
  | .leave id =>
    match d.scope? id with
    | some s => (none, { d with
        tokens := d.tokens.fire (tokenOf s.id)
        scopes := d.scopes.filter fun t => t.id != id })
    | none => (none, d)
  | .advance nanos =>
    let moved := { d with now := d.now + nanos }
    (none, moved.takeTurns.wake moved.now)
  | .run id work cancel =>
    match d.scope? id with
    | none => (none, d)
    | some s =>
      let asked := match cancel with
        | some (token, delay) =>
          { d with background := d.background ++ [⟨token, delay, none, false⟩] }
        | none => d
      match drive s work d.now (2 * asked.background.length + 4) asked with
      | (some outcome, e) => (some ⟨outcome, e.now - d.now⟩, e)
      | (none, e) => (none, e)

end Deadlines

end HealthRelay.Simulation
