/-!
# Text in octets

Octets hold text in UTF-8.  Reading takes one octet after the other.  Between
characters, an octet either is a character, or begins one and owes one to three
further octets.  The next octet owed must lie in a range that the first octet
fixes, so that no character has two forms and none lies beyond the last.

Octets that begin a character but do not complete it are malformed, together as
one piece.  The octet that breaks them off is read anew.  `Utf8.read` gives the
pieces in order.  Strict reading wants every piece to be a character, lossy
reading puts U+FFFD for each malformed piece.
-/

namespace Decommission.Utf8

/-- A character of which some octets have been read. -/
structure Partial where
  /-- Octets still owed. -/
  owed : Nat
  /-- The least octet that may come next. -/
  low : Nat
  /-- The greatest octet that may come next. -/
  high : Nat
  bits : Nat
deriving DecidableEq, Repr

/-- A piece of text: a character, or octets that are malformed. -/
abbrev Piece := Option Char

/-- An octet between characters: the pieces it completes, and the character it
begins. -/
def first (b : Nat) : List Piece × Option Partial :=
  if b ≤ 0x7F then ([some (Char.ofNat b)], none)
  else if 0xC2 ≤ b ∧ b ≤ 0xDF then ([], some ⟨1, 0x80, 0xBF, b - 0xC0⟩)
  else if b = 0xE0 then ([], some ⟨2, 0xA0, 0xBF, 0⟩)
  else if b = 0xED then ([], some ⟨2, 0x80, 0x9F, 0xD⟩)
  else if 0xE1 ≤ b ∧ b ≤ 0xEF then ([], some ⟨2, 0x80, 0xBF, b - 0xE0⟩)
  else if b = 0xF0 then ([], some ⟨3, 0x90, 0xBF, 0⟩)
  else if 0xF1 ≤ b ∧ b ≤ 0xF3 then ([], some ⟨3, 0x80, 0xBF, b - 0xF0⟩)
  else if b = 0xF4 then ([], some ⟨3, 0x80, 0x8F, 4⟩)
  else ([none], none)

/-- One more octet: the pieces it completes, and the character then begun. -/
def next (begun : Option Partial) (b : Nat) : List Piece × Option Partial :=
  match begun with
  | none => first b
  | some p =>
      if p.low ≤ b ∧ b ≤ p.high then
        let bits := p.bits * 64 + (b - 0x80)
        if p.owed ≤ 1 then ([some (Char.ofNat bits)], none)
        else ([], some ⟨p.owed - 1, 0x80, 0xBF, bits⟩)
      else
        let (pieces, begun) := first b
        (none :: pieces, begun)

/-- The pieces of octets, after a character has been begun. -/
def readFrom (begun : Option Partial) : List Nat → List Piece
  | [] => if begun.isSome then [none] else []
  | b :: bs =>
      let (pieces, begun) := next begun b
      pieces ++ readFrom begun bs

/-- The pieces of octets. -/
def read (bs : List Nat) : List Piece := readFrom none bs

/-- The text of octets, if no piece is malformed. -/
def strict? (bs : List Nat) : Option String := ((read bs).mapM id).map String.ofList

/-- The text of octets, with U+FFFD for malformed pieces. -/
def lossy (bs : List Nat) : String := String.ofList ((read bs).map (·.getD '\uFFFD'))

example : read [0xE2, 0x82, 0xAC] = [some '€'] := by decide
example : read [0xE2, 0x82, 0x41] = [none, some 'A'] := by decide
example : read [0xF0, 0x80, 0x80] = [none, none, none] := by decide

end Decommission.Utf8
