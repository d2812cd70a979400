/-!
# Readers

A reader takes the characters that are left of a text.  It gives what it read
and the characters after it, or nothing if they are not of the right form.
-/

namespace Decommission

/-- What reads a value off the front of a text. -/
abbrev Reader (α : Type) := List Char → Option (α × List Char)

end Decommission
