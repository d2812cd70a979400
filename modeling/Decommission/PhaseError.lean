import Decommission.Engine.Basic
import Decommission.Phase

/-!
# Failed phases

Why a supervised phase run did not end well.
-/

namespace Decommission

/-- Why a phase run failed. -/
inductive PhaseError
  | componentFailure (phase : Phase) (failed : Nat)
  /-- The engine stopped after it had been asked to wind down. -/
  | timeout (phase : Phase)
  /-- Nobody waited any longer for the engine to stop. -/
  | forceQuit (phase : Phase)
  | engine (phase : Phase) (error : EngineError)
deriving DecidableEq, Repr

namespace PhaseError

/-- The phase that failed. -/
def phase : PhaseError → Phase
  | componentFailure phase _ => phase
  | timeout phase => phase
  | forceQuit phase => phase
  | engine phase _ => phase

/-- What the error goes back to, in words, if it goes back to another error. -/
def source? : PhaseError → Option String
  | engine _ error => some error.message
  | _ => none

/-- The error in words. -/
def message : PhaseError → String
  | componentFailure phase failed =>
      phase.text ++ ": uninstallation failed due to errors in " ++ toString failed
        ++ " component(s)"
  | timeout phase => phase.text ++ ": uninstallation failed due to the timeout"
  | forceQuit phase => phase.text ++ ": force quit: uninstallation failed due to the timeout"
  | engine phase error => phase.text ++ ": " ++ error.message

end PhaseError

end Decommission
