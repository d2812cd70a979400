import Decommission.Datum

/-!
# Building tables

A settings text names tables in headers, in dotted keys and inline.  While it is
read, each table remembers how it came about.

* A header makes a table and, where needed, the tables above it.  Those are only
  implied, and a later header may still name them.
* A dotted key makes the tables above its last part.  No header may name them
  again, and only further dotted keys of the same kind add to them.
* An array of tables gets one more table from each of its headers.  Whatever
  names the array afterwards means its last table.
* Arrays and inline tables are complete once written.  Nothing adds to them.

`put?` adds a value under a dotted key, `open?` names a table in a header, and
`push?` adds a table to an array of tables.  Each gives nothing where the rules
forbid it.
-/

namespace Decommission.Toml

/-- How a table came about. -/
inductive Origin
  /-- A header named it. -/
  | header
  /-- A header named a table below it. -/
  | implied
  /-- A dotted key named something below it. -/
  | dotted
deriving DecidableEq, Repr

/-- What stands at a key. -/
inductive Node
  | value (d : Datum)
  /-- A table that may still grow. -/
  | table (origin : Origin) (entries : List (String × Node))
  /-- An array of tables, the oldest first. -/
  | tables (items : List (List (String × Node)))

/-- A table that may still grow. -/
abbrev Branch := List (String × Node)

/-- Replace what stands at a key.  The function is told what is there, and may
refuse. -/
def alter (key : String) (f : Option Node → Option Node) : Branch → Option Branch
  | [] => (f none).map fun n => [(key, n)]
  | e :: es =>
      if e.1 = key then (f (some e.2)).map fun n => (key, n) :: es
      else (alter key f es).map (e :: ·)

/-- Change the last of several tables. -/
def alterLast (f : Branch → Option Branch) : List Branch → Option (List Branch)
  | [] => none
  | [b] => (f b).map ([·])
  | b :: bs => (alterLast f bs).map (b :: ·)

/-- Change the table that a header's path leads to.  Tables that are missing on
the way are implied. -/
def within? (f : Branch → Option Branch) : List String → Branch → Option Branch
  | [] => f
  | key :: path =>
      alter key fun
        | none => (within? f path []).map (.table .implied)
        | some (.table o b) => (within? f path b).map (.table o)
        | some (.tables bs) => (alterLast (within? f path) bs).map .tables
        | some (.value _) => none

/-- Change the table that the path of a dotted key leads to.  The table at the end
of the path must come from dotted keys itself. -/
def withinDotted? (f : Branch → Option Branch) : List String → Branch → Option Branch
  | [] => f
  | key :: path =>
      alter key fun
        | none => (withinDotted? f path []).map (.table .dotted)
        | some (.table o b) =>
            if o = .header ∨ (path = [] ∧ o ≠ .dotted) then none
            else (withinDotted? f path b).map (.table o)
        | some (.tables bs) =>
            if path = [] then none else (alterLast (withinDotted? f path) bs).map .tables
        | some (.value _) => none

/-- Add a value under a dotted key, given by the parts above its last and its
last part. -/
def put? (path : List String) (key : String) (d : Datum) : Branch → Option Branch :=
  withinDotted? (alter key fun
    | none => some (.value d)
    | some _ => none) path

/-- Name a table in a header. -/
def open? (path : List String) (key : String) : Branch → Option Branch :=
  within? (alter key fun
    | none => some (.table .header [])
    | some (.table .implied b) => some (.table .header b)
    | some _ => none) path

/-- Add a table to an array of tables. -/
def push? (path : List String) (key : String) : Branch → Option Branch :=
  within? (alter key fun
    | none => some (.tables [[]])
    | some (.tables bs) => some (.tables (bs ++ [[]]))
    | some _ => none) path

/-! ## The data of tables -/

mutual

/-- The data at a key. -/
def Node.toDatum : Node → Datum
  | .value d => d
  | .table _ b => .table (entriesOf b)
  | .tables bs => .array (itemsOf bs)

/-- The entries of a table as data. -/
def entriesOf : List (String × Node) → List (String × Datum)
  | [] => []
  | (key, n) :: es => (key, n.toDatum) :: entriesOf es

/-- The tables of an array as data. -/
def itemsOf : List (List (String × Node)) → List Datum
  | [] => []
  | b :: bs => .table (entriesOf b) :: itemsOf bs

end

end Decommission.Toml
