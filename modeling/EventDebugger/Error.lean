import EventDebugger.Text.Decimal

/-!
# Errors of the debugger
-/

namespace EventDebugger

/-- Why a command failed. -/
inductive Error where
  | notStarted
  | invalidFrame (index : Int)
  | frameOutOfRange (index : Int) (size : Nat)
  | negativeSteps
  | noFrames
  | alreadySuspended
  | notSuspended
  | postMortemActive
  /-- The thread with this text is not alive. -/
  | untrackedThread (text : String)
deriving DecidableEq, Repr

/-- What is reported to the user. -/
def Error.message : Error → String
  | .notStarted => "Debugger.start is not called yet"
  | .invalidFrame index => "Invalid frame number " ++ String.ofList (Text.Decimal.renderInt index)
  | .frameOutOfRange index size =>
      "Frame " ++ String.ofList (Text.Decimal.renderInt index) ++ " is out of range (stack has " ++
        String.ofList (Text.Decimal.render size) ++ " frames)"
  | .negativeSteps => "Steps argument can't be negative"
  | .noFrames => "No frames collected"
  | .alreadySuspended => "Already suspended"
  | .notSuspended => "Thread is not suspended"
  | .postMortemActive => "Post-mortem mode is already activated"
  | .untrackedThread text => "Thread " ++ text ++ " is not tracked"

/-- Why an event or a post-mortem could not be handled. -/
inductive HookError (ε : Type) where
  /-- The front-end failed. -/
  | frontEnd (error : ε)
  /-- A command of the debugger failed. -/
  | debugger (error : Error)
deriving DecidableEq, Repr

end EventDebugger
