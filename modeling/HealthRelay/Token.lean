/-!
# Cancellation tokens

A token is cancelled once it has fired or its parent is cancelled; firing a token never reaches its
parent. Tokens are named, by names of any type, and a name stands for the newest token that bears
it.
-/

namespace HealthRelay

/-- A token, with the name of its parent if it has one. -/
structure Token (ν : Type) where
  name : ν
  parent : Option ν
  hasFired : Bool
deriving DecidableEq, Repr

/-- Tokens from the newest to the oldest; a parent is older than its children. -/
abbrev TokenTree (ν : Type) := List (Token ν)

namespace TokenTree

variable {ν : Type}

def add (ts : TokenTree ν) (name : ν) (parent : Option ν) : TokenTree ν :=
  ⟨name, parent, false⟩ :: ts

variable [DecidableEq ν]

def isCancelled : TokenTree ν → ν → Bool
  | [], _ => false
  | t :: older, name =>
    if t.name = name then
      t.hasFired ||
        match t.parent with
        | some parent => isCancelled older parent
        | none => false
    else isCancelled older name

def fire : TokenTree ν → ν → TokenTree ν
  | [], _ => []
  | t :: older, name =>
    if t.name = name then { t with hasFired := true } :: older else t :: fire older name

def cancelled (ts : TokenTree ν) : List ν :=
  (ts.map (·.name)).eraseDups.filter ts.isCancelled

end TokenTree

end HealthRelay
