import EventDebugger.Debugger

/-!
# Tracking of threads

Every thread that the debugger sees gets a context, which it keeps as long as it is alive and the
session lasts.
-/

namespace EventDebugger.Debugger

/-- Makes a context for a thread. -/
def newContext (d : Debugger) (thread : Thread) : ContextId × Debugger :=
  let number := d.contextCount + 1
  { d with contextCount := number }.addContext
    (.initial thread number (d.host.isDebuggerThread thread))

/-- The context of a thread, made if there is none. -/
def track (d : Debugger) (session : Session) (thread : Thread) : ContextId × Debugger :=
  match session.table.find? thread with
  | some id =>
      (id, { d with session := some { session with table := session.table.remember thread id } })
  | none =>
      let (id, d) := d.newContext thread
      (id, { d with session := some { session with table := session.table.insert thread id } })

/-- Entries for threads, taken from a table where it has them and made where it has none. -/
def entriesFor (d : Debugger) (table : ThreadTable) :
    List Thread → List (Thread × ContextId) × Debugger
  | [] => ([], d)
  | thread :: threads =>
      let (id, d) := match table.stored? thread with
        | some id => (id, d)
        | none => d.newContext thread
      let (entries, d) := d.entriesFor table threads
      ((thread, id) :: entries, d)

/-- Lets the table hold the contexts of the live threads and no others. -/
def rebuild (d : Debugger) (session : Session) : List ContextId × Debugger :=
  let (entries, d) := d.entriesFor session.table d.host.liveThreads
  (entries.map (·.2),
    { d with session := some { session with table := session.table.replace entries } })

/-- The contexts of the live threads. -/
def liveContexts (d : Debugger) : Except Error (List ContextId × Debugger) := do
  let session ← d.activeSession
  return d.rebuild session

/-- The context of a live thread. -/
def threadContext (d : Debugger) (thread : Thread) : Except Error (ContextId × Debugger) := do
  let session ← d.activeSession
  if d.host.isAlive thread then return d.track session thread
  else throw (.untrackedThread thread.text)

/-- The thread that runs on a system thread. -/
def currentThread (d : Debugger) (system : Nat) : Thread × Debugger :=
  let (thread, host) := d.host.currentThread system
  (thread, { d with host })

/-- The context of the thread that runs on a system thread. The thread is registered even where its
context is refused. -/
def currentContext (d : Debugger) (system : Nat) : Except Error ContextId × Debugger :=
  let (thread, d) := d.currentThread system
  match d.threadContext thread with
  | .ok (id, d) => (.ok id, d)
  | .error error => (.error error, d)

/-- The context of a session with a number. -/
def numbered? (d : Debugger) (session : Session) (number : Nat) : Option ContextId :=
  (session.table.entries.find? fun entry => (d.context entry.2).number == number).map (·.2)

/-- The context that halted last, if its thread is still tracked. -/
def lastContext (d : Debugger) : Except Error (Option ContextId) := do
  let session ← d.activeSession
  return d.lastHalted.bind (d.numbered? session)

/-- Makes the context of the current thread halt on its next line. -/
def interrupt (d : Debugger) (system : Nat) : Except Error Unit × Debugger :=
  match d.currentContext system with
  | (.error error, d) => (.error error, d)
  | (.ok id, d) =>
      match d.command id Context.interrupt with
      | .ok d => (.ok (), d)
      | .error error => (.error error, d)

/-- Makes the context that halted last halt on its next line, if its thread is alive. -/
def interruptLast (d : Debugger) : Except Error (Option ContextId × Debugger) := do
  match ← d.lastContext with
  | none => return (none, d)
  | some id =>
      if d.host.isAlive (d.context id).thread then
        return (some id, ← d.command id Context.interrupt)
      else return (none, d)

end EventDebugger.Debugger
