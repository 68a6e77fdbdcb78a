/-!
# Settings

What can be chosen when a debugger is made; the four flags can be changed later.
-/

namespace EventDebugger

/-- The settings of a debugger. -/
structure Settings where
  /-- Report every line to the front-end. -/
  tracing : Bool
  /-- Attach a copy of the context to every raised exception. -/
  postMortem : Bool
  /-- Capture a binding for every frame when it is opened. -/
  keepFrameBinding : Bool
  debug : Bool
  /-- How many events may pass between two removals of the contexts of exited threads. -/
  pruneInterval : Nat
  /-- The types whose native methods open a frame even without a block. -/
  blockHostTypes : List String
deriving DecidableEq, Repr

namespace Settings

/-- The settings unless chosen otherwise. -/
def standard : Settings := ⟨false, false, false, false, 3000, ["Proc", "Kernel", "Module"]⟩

/-- Adds a type whose native methods open frames, once. -/
def addBlockHostType (settings : Settings) (name : String) : Settings :=
  if settings.blockHostTypes.contains name then settings
  else { settings with blockHostTypes := settings.blockHostTypes ++ [name] }

end Settings

end EventDebugger
