import Decommission.Codec
import Decommission.Text.Utf8
import Decommission.Toml.Document

/-!
# Loading settings and inventories

Settings and inventories are read from text or from a file.  Reading gives the
first error there is: the file cannot be read, its text is not of the right
form, or what it says cannot be used.
-/

namespace Decommission

/-- What is found at the path of a file. -/
inductive Stored
  | nothing
  | directory
  | octets (bs : List Nat)
deriving DecidableEq

/-- The text of a file. -/
def Stored.text (path : String) : Stored → Except ConfigError String
  | nothing => .error (.read path "No such file or directory (os error 2)")
  | directory => .error (.read path "Is a directory (os error 21)")
  | octets bs =>
      match Utf8.strict? bs with
      | some s => .ok s
      | none => .error (.read path "stream did not contain valid UTF-8")

/-- Settings from text, before they are checked. -/
def Config.read? (text : String) : Option Config :=
  (Toml.read? text).bind (Config.ofDatum? .handwritten)

/-- Settings from text. -/
def Config.ofText (text : String) : Except ConfigError Config :=
  match Config.read? text with
  | none => .error .parse
  | some c => c.validate.map fun _ => c

/-- Settings from a file. -/
def Config.load (path : String) (file : Stored) : Except ConfigError Config :=
  (file.text path).bind Config.ofText

/-- An inventory from text, before it is checked. -/
def Inventory.read? (text : String) : Option Inventory :=
  (Toml.read? text).bind (Inventory.ofDatum? .handwritten)

/-- An inventory from text. -/
def Inventory.ofText (text : String) : Except ConfigError Inventory :=
  match Inventory.read? text with
  | none => .error .parse
  | some i => i.validate.map fun _ => i

/-- An inventory from a file. -/
def Inventory.load (path : String) (file : Stored) : Except ConfigError Inventory :=
  (file.text path).bind Inventory.ofText

end Decommission
