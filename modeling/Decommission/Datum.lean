/-!
# Data

Settings are written in data formats that share one shape: plain values, arrays,
and tables of named entries.  `Datum` is that shape.  A number that is not whole
has no use here and is kept without its value, and so is a date or a time.

A record is read from a table by the names of its fields, or from an array by
their positions.  An enumerated value is read from its name alone, or from a
table whose only entry has that name and no content.  Formats differ in two
details, which `Dialect` holds.
-/

namespace Decommission

/-- A value of a data format. -/
inductive Datum
  | null
  | bool (b : Bool)
  | whole (n : Int)
  | fractional
  | text (s : String)
  | moment
  | array (items : List Datum)
  | table (entries : List (String × Datum))
deriving Inhabited

/-- The details in which data formats differ. -/
structure Dialect where
  /-- Whether an array may hold more items than a record has fields. -/
  surplus : Bool
  isVoid : Datum → Bool

/-- Data exchanged between programs: no surplus, and `null` is no content. -/
def Dialect.exchange : Dialect where
  surplus := false
  isVoid
    | .null => true
    | _ => false

/-- Data written by hand: surplus items are ignored, and what is empty has no
content. -/
def Dialect.handwritten : Dialect where
  surplus := true
  isVoid
    | .array [] => true
    | .table [] => true
    | _ => false

/-- The entries of a record: each field that is given, and whether the fields were
given by position. -/
structure Entries where
  get? : String → Option Datum
  /-- Whether the fields were given by position. -/
  positional : Bool

namespace Datum

/-- The value of a name in a list of entries. -/
def entry? (name : String) : List (String × Datum) → Option Datum
  | [] => none
  | e :: es => if e.1 = name then some e.2 else entry? name es

/-- The entries of a record with the given fields.  A moment counts as a table
without any of them. -/
def entries? (dialect : Dialect) (fields : List String) : Datum → Option Entries
  | table es => some ⟨fun name => entry? name es, false⟩
  | moment => some ⟨fun _ => none, false⟩
  | array items =>
      if dialect.surplus || items.length ≤ fields.length then
        some ⟨fun name => entry? name (fields.zip items), true⟩
      else none
  | _ => none

/-- An enumerated value, by its name. -/
def choice? {α : Type} (dialect : Dialect) (choices : List (String × α)) : Datum → Option α
  | text s => choices.lookup s
  | table [(name, content)] => if dialect.isVoid content then choices.lookup name else none
  | _ => none

/-- A text. -/
def text? : Datum → Option String
  | text s => some s
  | _ => none

/-- A whole number from zero up, below a bound. -/
def below? (bound : Nat) : Datum → Option { n : Nat // n < bound }
  | whole n => if h : 0 ≤ n ∧ n.toNat < bound then some ⟨n.toNat, h.2⟩ else none
  | _ => none

/-- A list of values. -/
def list? {α : Type} (item? : Datum → Option α) : Datum → Option (List α)
  | array items => items.mapM item?
  | _ => none

/-- A value or `null`. -/
def nullable? {α : Type} (item? : Datum → Option α) : Datum → Option (Option α)
  | null => some none
  | d => (item? d).map some

end Datum

namespace Entries

variable {α : Type}

/-- The value of a field that must be given. -/
def require (es : Entries) (name : String) (item? : Datum → Option α) : Option α :=
  (es.get? name).bind item?

/-- The value of a field, or a default where it is not given. -/
def default (es : Entries) (name : String) (item? : Datum → Option α) (value : α) : Option α :=
  match es.get? name with
  | none => some value
  | some d => item? d

/-- The value of a field that need not be given, unless fields go by position. -/
def optional (es : Entries) (name : String) (item? : Datum → Option α) : Option (Option α) :=
  match es.get? name with
  | none => if es.positional then none else some none
  | some d => d.nullable? item?

end Entries

end Decommission
