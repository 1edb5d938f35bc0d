/-!
# Mailboxes

A bounded queue with a fair waiting line. A place that becomes free is granted to the first waiter
in line, who fills it when it next looks; everyone else finds the mailbox full until then. Waiters
are told apart by their tickets.
-/

namespace HealthRelay

/-- How the receiving end stands. -/
inductive Gate where
  | opened
  /-- Nothing more gets in; what is queued can still be taken. -/
  | closed
  /-- There is no receiver any more. -/
  | dropped
deriving DecidableEq, Repr

/-- A bounded queue of `α` with a waiting line. -/
structure Mailbox (α : Type) where
  capacity : Nat
  queue : List α
  /-- Tickets in line, the longest waiting first. -/
  waiting : List Nat
  /-- Tickets that own a free place and have not filled it yet. -/
  granted : List Nat
  gate : Gate
  /-- Everything that ever got in, in order. -/
  accepted : List α
deriving DecidableEq, Repr

namespace Mailbox

variable {α : Type}

def empty (capacity : Nat) : Mailbox α :=
  { capacity, queue := [], waiting := [], granted := [], gate := .opened, accepted := [] }

def isOpen (m : Mailbox α) : Bool := m.gate == .opened

/-- Whether there is a place that is neither filled nor granted. -/
def hasRoom (m : Mailbox α) : Bool :=
  decide (m.queue.length + m.granted.length < m.capacity)

def push (m : Mailbox α) (a : α) : Mailbox α :=
  { m with queue := m.queue ++ [a], accepted := m.accepted ++ [a] }

/-- Grants a free place to the first in line. -/
def grant (m : Mailbox α) : Mailbox α :=
  match m.waiting with
  | [] => m
  | t :: line => if m.hasRoom then { m with waiting := line, granted := m.granted ++ [t] } else m

inductive Offer (α : Type) where
  | sent (mailbox : Mailbox α)
  | full
  | shut

def offer (m : Mailbox α) (a : α) : Offer α :=
  if !m.isOpen then .shut
  else if m.hasRoom then .sent (m.push a)
  else .full

def joinLine (m : Mailbox α) (ticket : Nat) : Mailbox α :=
  { m with waiting := m.waiting ++ [ticket] }

/-- Takes a ticket out of the line, or gives back the place it owns. -/
def withdraw (m : Mailbox α) (ticket : Nat) : Mailbox α :=
  if m.granted.contains ticket then { m with granted := m.granted.erase ticket }.grant
  else { m with waiting := m.waiting.erase ticket }

/-- The outcome of a waiter's look. -/
inductive Claim (α : Type) where
  | placed (mailbox : Mailbox α)
  | waiting
  | shut (mailbox : Mailbox α)

/-- A waiter looks whether it can get in now. -/
def claim (m : Mailbox α) (ticket : Nat) (a : α) : Claim α :=
  if !m.isOpen then .shut (m.withdraw ticket)
  else if m.granted.contains ticket then
    .placed ({ m with granted := m.granted.erase ticket }.push a)
  else .waiting

/-- Takes the first of the queue, which makes room for the first in line. -/
def take? (m : Mailbox α) : Option (α × Mailbox α) :=
  match m.queue with
  | [] => none
  | a :: rest => some (a, { m with queue := rest }.grant)

/-- The receiver lets nothing more in. -/
def close (m : Mailbox α) : Mailbox α :=
  match m.gate with
  | .opened => { m with gate := .closed }
  | _ => m

/-- The receiver goes away, and with it what was queued. -/
def drop (m : Mailbox α) : Mailbox α :=
  { m with gate := .dropped, queue := [] }

end Mailbox

end HealthRelay
