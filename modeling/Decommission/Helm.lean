import Decommission.Text.Blank
import Decommission.Text.Utf8
import Decommission.Uninstaller

/-!
# Removing releases with `helm`

A component that was deployed as a release is removed by the command `helm`.
`Helm.arguments` is what the command is called with, and `Helm.verdict` reads its
end.  A release that is not there counts as removed.
-/

namespace Decommission

/-- How a command ended. -/
inductive Exit
  | status (code : Int)
  /-- By a signal. -/
  | killed
deriving DecidableEq

/-- Whether the command went well. -/
def Exit.isSuccess : Exit → Bool
  | status code => code == 0
  | killed => false

/-- What became of a command. -/
inductive Ran
  | absent
  /-- It ended, and left these octets on its error output. -/
  | ended (exit : Exit) (stderr : List Nat)
deriving DecidableEq

/-- The uninstaller that calls `helm`. -/
structure Helm where
  /-- The file with the credentials for the cluster, if one is named. -/
  kubeconfig : Option String := none
deriving DecidableEq, Inhabited

namespace Helm

/-- The arguments for the removal of a component. -/
def arguments (h : Helm) (c : Component) : List String :=
  ["uninstall", c.name, "--namespace", c.space, "--wait"]
    ++ (h.kubeconfig.map fun file => ["--kubeconfig", file]).getD []

/-- Arguments end at their first NUL, so none may hold one. -/
def isPassable (args : List String) : Bool := args.all fun a => !a.contains '\x00'

/-- Whether a text occurs within another. -/
def occursIn (part : List Char) : List Char → Bool
  | [] => part.isEmpty
  | c :: cs => part.isPrefixOf (c :: cs) || occursIn part cs

/-- Whether the command reports that there is no such release. -/
def reportsMissing (text : String) : Bool := occursIn "release: not found".toList text.toList

/-- How the removal of a component ended. -/
def verdict (h : Helm) (c : Component) (ran : Ran) : Verdict :=
  if !isPassable (h.arguments c) then some (.command "nul byte found in provided data")
  else
    match ran with
    | .absent => some (.command "No such file or directory (os error 2)")
    | .ended exit stderr =>
        let text := Utf8.lossy stderr
        if exit.isSuccess || reportsMissing text then none
        else some (.failed c.name (String.ofList (trimBlanks text.toList)))

/-- The arguments with which the command really ran: none if it did not. -/
def ranWith (h : Helm) (c : Component) : Ran → List String
  | .absent => []
  | .ended .. => if isPassable (h.arguments c) then h.arguments c else []

end Helm

end Decommission
