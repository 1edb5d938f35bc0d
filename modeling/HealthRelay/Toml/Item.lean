import HealthRelay.Toml.Scalar

/-!
# TOML items and tables

The tree that a text describes, and the rules by which keys and headers may add to it: no key twice,
no table defined twice, and a table made by dotted keys grows by dotted keys only.
-/

namespace HealthRelay.Toml

/-- How a table came to be. -/
inductive Nature where
  /-- Named by a header of its own. -/
  | explicit
  /-- Named only inside longer headers; a header of its own may still follow. -/
  | implicit
  /-- Named only inside dotted keys. -/
  | dotted
  /-- Written between braces, and complete. -/
  | inline
deriving DecidableEq, Repr

inductive Item where
  | text (s : String)
  | scalar (kind : Scalar)
  | list (items : List Item)
  | table (nature : Nature) (rows : List (String × Item))
  /-- The tables of repeated headers in double brackets. -/
  | tables (elements : List (List (String × Item)))

/-- The rows of a table, in the order of their keys' first appearance. -/
abbrev Rows := List (String × Item)

namespace Rows

def get? (rows : Rows) (key : String) : Option Item :=
  rows.lookup key

def replace (rows : Rows) (key : String) (item : Item) : Rows :=
  rows.map fun row => if row.1 = key then (key, item) else row

def add (rows : Rows) (key : String) (item : Item) : Rows :=
  rows ++ [(key, item)]

def changeLast (change : Rows → Option Rows) : List Rows → Option (List Rows)
  | [] => none
  | [rows] => (change rows).map fun rows => [rows]
  | rows :: more => (changeLast change more).map fun more => rows :: more

/-- Adds an item under a dotted key. `mayGrow` says whether the table itself takes keys this way. -/
def put (item : Item) : List String → (mayGrow : Bool) → Rows → Option Rows
  | [], _, _ => none
  | [key], mayGrow, rows =>
    if mayGrow then
      match rows.get? key with
      | none => some (rows.add key item)
      | some _ => none
    else none
  | key :: keys, _, rows =>
    match rows.get? key with
    | none => (put item keys true []).map fun child => rows.add key (.table .dotted child)
    | some (.table nature child) =>
      match nature with
      | .dotted =>
        (put item keys true child).map fun child => rows.replace key (.table nature child)
      | .implicit =>
        (put item keys false child).map fun child => rows.replace key (.table nature child)
      | .explicit => none
      | .inline => none
    | some (.tables elements) =>
      (changeLast (put item keys false) elements).map fun elements =>
        rows.replace key (.tables elements)
    | some _ => none

/-- Changes the table that the parts of a header lead to, making the tables on the way. -/
def within (change : Rows → Option Rows) : List String → Rows → Option Rows
  | [], rows => change rows
  | key :: keys, rows =>
    match rows.get? key with
    | none => (within change keys []).map fun child => rows.add key (.table .implicit child)
    | some (.table .inline _) => none
    | some (.table nature child) =>
      (within change keys child).map fun child => rows.replace key (.table nature child)
    | some (.tables elements) =>
      (changeLast (within change keys) elements).map fun elements =>
        rows.replace key (.tables elements)
    | some _ => none

/-- Opens the table of a header: a new one, or one that was only named on the way to others. -/
def openTable (key : String) (rows : Rows) : Option Rows :=
  match rows.get? key with
  | none => some (rows.add key (.table .explicit []))
  | some (.table .implicit child) => some (rows.replace key (.table .explicit child))
  | some _ => none

/-- Opens one more table of a header in double brackets. -/
def openElement (key : String) (rows : Rows) : Option Rows :=
  match rows.get? key with
  | none => some (rows.add key (.tables [[]]))
  | some (.tables elements) => some (rows.replace key (.tables (elements ++ [[]])))
  | some _ => none

end Rows

end HealthRelay.Toml
