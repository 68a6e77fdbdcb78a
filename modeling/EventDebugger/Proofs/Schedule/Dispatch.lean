import EventDebugger.Proofs.Dispatch.Locality
import EventDebugger.Proofs.Host.Ancestry
import EventDebugger.Proofs.Schedule.Alike

/-!
# The same event in two runs

What the dispatch of an event does with the context of its thread depends on that context, on the scope
and the variables of the thread and on what all threads share. In two runs where these are alike, an
event calls the front-end alike and leaves the contexts alike.

* `Debugger.alike_dispatch`: an event up to the first call of the front-end.
* `Debugger.alike_run`: an event from the return of a call of the front-end on.
-/

namespace EventDebugger

def Debugger.rules (d : Debugger) :
    Settings × Option Registry × Option String × List (String × Option String) :=
  (d.settings, d.session.map (·.registry), d.catchpoint, d.host.parents)

structure Host.Alike (m : Matching) (thread : Thread) (a b : Host) : Prop where
  scopes : a.scopes.Alike m b.scopes
  scope : Option.Rel (Scope.Alike m) ((a.record? thread).map (·.scope)) ((b.record? thread).map (·.scope))
  ofDebugger : b.isDebuggerThread thread = a.isDebuggerThread thread

structure Debugger.Alike (m : Matching) (system : Nat) (thread : Thread) (id id' : ContextId)
    (a b : Debugger) : Prop where
  rules : b.rules = a.rules
  live : a.settings.postMortem = false
  host : a.host.Alike m thread b.host
  bound : a.host.boundTo? system = some thread
  bound' : b.host.boundTo? system = some thread
  known : id < a.contexts.size
  known' : id' < b.contexts.size
  context : (a.context id).Alike m (b.context id')

inductive Outcome.Alike (id id' : ContextId) : Outcome → Outcome → Prop
  | done : Alike id id' .done .done
  | traced (position : Position) (receiver : Option Value) (moved : Bool) :
      Alike id id' (.call (.tracing id position) (.lineTraced position receiver moved))
        (.call (.tracing id' position) (.lineTraced position receiver moved))
  | breakpoint (bp : Breakpoint) (position : Position) (onLine : Bool) :
      Alike id id' (.call (.breakpoint id bp) (.breakpointReported position onLine))
        (.call (.breakpoint id' bp) (.breakpointReported position onLine))
  | catchpoint (className : String) (number number' : Nat) (position : Position)
      (receiver : Option Value) :
      Alike id id'
        (.call (.catchpoint id (.exception className number))
          (.exceptionReported position receiver none))
        (.call (.catchpoint id' (.exception className number'))
          (.exceptionReported position receiver none))
  | halted (position : Position) :
      Alike id id' (.call (.line id position) .resumed) (.call (.line id' position) .resumed)

namespace Debugger

structure Pieces (m : Matching) (system : Nat) (thread : Thread) (id id' : ContextId)
    (p q : Outcome × Debugger) : Prop where
  outcome : p.1.Alike id id' q.1
  debugger : Alike m system thread id id' p.2 q.2

variable {m : Matching} {system : Nat} {thread : Thread} {id id' : ContextId} {a b : Debugger}

namespace Alike

variable (h : Alike m system thread id id' a b)
include h

theorem settings_eq : b.settings = a.settings := congrArg (·.1) h.rules

theorem catchpoint_eq : b.catchpoint = a.catchpoint := congrArg (·.2.2.1) h.rules

theorem parents_eq : b.host.parents = a.host.parents := congrArg (·.2.2.2) h.rules

theorem updateContext {f g : Context → Context}
    (change : (a.context id).Alike m (b.context id') → (f (a.context id)).Alike m (g (b.context id'))) :
    Alike m system thread id id' (a.updateContext id f) (b.updateContext id' g) := by
  refine ⟨h.rules, h.live, h.host, h.bound, h.bound', ?_, ?_, ?_⟩
  · rw [size_updateContext]
    exact h.known
  · rw [size_updateContext]
    exact h.known'
  · rw [context_updateContext_self _ _ h.known, context_updateContext_self _ _ h.known']
    exact change h.context

theorem captureBinding (receiver : Option Value) :
    ∃ binding binding', a.captureBinding system receiver = (binding, a) ∧
      b.captureBinding system receiver = (binding', b) ∧ Option.Rel (Binding.Alike m) binding binding' := by
  cases receiver with
  | none => exact ⟨none, none, rfl, rfl, .none⟩
  | some receiver =>
      have scope := h.host.scope
      unfold Debugger.captureBinding Host.createBinding? Host.createBinding
      simp only [Host.currentThread_of_bound h.bound, Host.currentThread_of_bound h.bound']
      cases own : a.host.record? thread with
      | none =>
          cases own' : b.host.record? thread with
          | none => exact ⟨_, _, rfl, rfl, .some (.intro receiver (.copied []))⟩
          | some record =>
              rw [own, own'] at scope
              cases scope
      | some record =>
          cases own' : b.host.record? thread with
          | none =>
              rw [own, own'] at scope
              cases scope
          | some record' =>
              rw [own, own'] at scope
              cases scope with
              | some scopes => exact ⟨_, _, rfl, rfl, .some (.intro receiver (.live scopes))⟩

theorem openFrame {event event' : Event} (events : event.Alike m event') (position : Position) :
    Alike m system thread id id' (a.openFrame system id event position)
      (b.openFrame system id' event' position) := by
  cases events with
  | intro kinds scopes =>
      obtain ⟨binding, binding', captured, captured', bindings⟩ :=
        h.captureBinding (if a.settings.keepFrameBinding then event.receiver else none)
      unfold Debugger.openFrame Debugger.newFrame
      simp only [h.settings_eq, captured, captured']
      refine h.updateContext fun contexts => contexts.push ?_
      exact .intro ⟨event.method, event.method, position, binding, event.receiver, event.enclosingType,
        .live event.scope⟩ bindings (.live scopes)

theorem findBreakpoint?_eq (p : Breakpoint → Bool) : b.findBreakpoint? id' p = a.findBreakpoint? id p := by
  have listed : b.findListed? p = a.findListed? p := by
    have registry : b.session.map (·.registry) = a.session.map (·.registry) := congrArg (·.2.1) h.rules
    unfold findListed?
    cases active : a.session with
    | none =>
        cases active' : b.session with
        | none => rfl
        | some session =>
            rw [active, active'] at registry
            cases registry
    | some session =>
        cases active' : b.session with
        | none =>
            rw [active, active'] at registry
            cases registry
        | some session' =>
            rw [active, active'] at registry
            simp only [Option.map_some, Option.some.injEq] at registry
            simp only [registry]
  have context := h.context
  unfold findBreakpoint?
  rw [listed]
  generalize a.context id = c at context
  generalize b.context id' = c' at context
  cases context
  rfl

theorem guardHolds_eq (bp : Breakpoint) {binding binding' : Option Binding}
    (bindings : Option.Rel (Binding.Alike m) binding binding') :
    b.guardHolds bp binding' = a.guardHolds bp binding := by
  have read : b.readVariable binding' = a.readVariable binding := by
    funext name
    unfold readVariable
    cases bindings with
    | none => rfl
    | some bindings => exact bindings.lookup?_eq h.host.scopes name
  unfold guardHolds
  rw [read]

theorem halt (position : Position) :
    Pieces m system thread id id' (a.halt id position) (b.halt id' position) := by
  refine ⟨.halted position, ?_⟩
  have noted : Alike m system thread id id' { a with lastHalted := some (a.context id).number }
      { b with lastHalted := some (b.context id').number } :=
    ⟨h.rules, h.live, h.host, h.bound, h.bound', h.known, h.known', h.context⟩
  exact noted.updateContext fun contexts => contexts.savePosition

theorem haltAt (position : Position) (onLine : Bool) :
    Pieces m system thread id id' (a.haltAt id position onLine) (b.haltAt id' position onLine) := by
  cases onLine with
  | false => exact h.halt position
  | true => exact (h.updateContext fun contexts => contexts.clearSteps).halt position

theorem haltOnBreakpoint (found : Found) (position : Position) (onLine : Bool) :
    Pieces m system thread id id' (a.haltOnBreakpoint id found position onLine)
      (b.haltOnBreakpoint id' found position onLine) := by
  unfold Debugger.haltOnBreakpoint
  rw [h.context.isOwn_eq found]
  split
  · refine (h.updateContext fun contexts => ?_).haltAt position onLine
    exact contexts.map (f := fun context => { context with temporary := none })
      (fun _ _ _ => rfl) fun _ => rfl
  · refine ⟨.breakpoint found.breakpoint position onLine, h.updateContext fun contexts => ?_⟩
    exact contexts.map (f := fun context => { context with reason := .breakpoint })
      (fun _ _ _ => rfl) fun _ => rfl

theorem captureLine (receiver : Option Value) :
    ∃ binding binding' a' b', a.captureLine system id receiver = (binding, a') ∧
      b.captureLine system id' receiver = (binding', b') ∧
      Option.Rel (Binding.Alike m) binding binding' ∧ Alike m system thread id id' a' b' := by
  obtain ⟨binding, binding', captured, captured', bindings⟩ := h.captureBinding receiver
  unfold Debugger.captureLine
  simp only [captured, captured']
  refine ⟨_, _, _, _, rfl, rfl, bindings, h.updateContext fun contexts => ?_⟩
  exact (contexts.setTopBinding bindings).map (f := fun context => { context with reason := .step })
    (fun _ _ _ => rfl) fun _ => rfl

theorem checkLine (position : Position) (receiver : Option Value) (moved : Bool) :
    Pieces m system thread id id' (a.checkLine system id position receiver moved)
      (b.checkLine system id' position receiver moved) := by
  have counted := h.updateContext (f := (·.countLine moved)) (g := (·.countLine moved))
    fun contexts => contexts.countLine moved
  obtain ⟨binding, binding', a', b', captured, captured', bindings, alike⟩ := counted.captureLine receiver
  unfold Debugger.checkLine
  simp only [counted.context.isStepDue_eq, counted.findBreakpoint?_eq, captured, captured']
  split
  · exact alike.haltAt position true
  · split
    · exact ⟨.done, counted⟩
    · next found _ =>
        rw [alike.guardHolds_eq _ bindings]
        split
        · exact alike.haltOnBreakpoint found position true
        · exact ⟨.done, alike⟩

variable {event event' : Event} (events : event.Alike m event') (position : Position)
include events

theorem onLine (conditional moved : Bool) :
    Pieces m system thread id id' (a.onLine system id event position conditional moved)
      (b.onLine system id' event' position conditional moved) := by
  have placed : Alike m system thread id id'
      (if (a.context id).stack.isEmpty then a.openFrame system id event position
        else a.updateContext id (·.moveTop event position false))
      (if (b.context id').stack.isEmpty then b.openFrame system id' event' position
        else b.updateContext id' (·.moveTop event' position false)) := by
    rw [h.context.isEmpty_eq]
    split
    · exact h.openFrame events position
    · exact h.updateContext fun contexts => contexts.moveTop events position false
  have receiver : event'.receiver = event.receiver := by cases events; rfl
  unfold Debugger.onLine
  generalize (if (a.context id).stack.isEmpty then a.openFrame system id event position
    else a.updateContext id (·.moveTop event position false)) = a' at placed ⊢
  generalize (if (b.context id').stack.isEmpty then b.openFrame system id' event' position
    else b.updateContext id' (·.moveTop event' position false)) = b' at placed ⊢
  simp only [placed.settings_eq, placed.context.tracing_eq, receiver]
  split
  · exact ⟨.done, placed⟩
  · split
    · exact ⟨.traced position event.receiver moved, placed⟩
    · exact placed.checkLine position event.receiver moved

theorem onCall : Pieces m system thread id id' (a.onCall system id event position)
    (b.onCall system id' event' position) := by
  have opened := h.openFrame events position
  obtain ⟨method, receiver, enclosing⟩ : event'.method = event.method ∧
      event'.receiver = event.receiver ∧ event'.enclosingType = event.enclosingType := by
    cases events
    exact ⟨rfl, rfl, rfl⟩
  have kept := opened.context.topBinding
  unfold Debugger.onCall
  generalize a.openFrame system id event position = a' at opened kept ⊢
  generalize b.openFrame system id' event' position = b' at opened kept ⊢
  obtain ⟨binding, binding', captured, captured', bindings⟩ := opened.captureBinding event.receiver
  have halts (found : Found) {binding binding' : Option Binding}
      (bindings : Option.Rel (Binding.Alike m) binding binding') :
      Pieces m system thread id id'
        (if (a'.updateContext id (·.setTopBinding binding)).guardHolds found.breakpoint binding then
          (a'.updateContext id (·.setTopBinding binding)).haltOnBreakpoint id found position false
        else (.done, a'.updateContext id (·.setTopBinding binding)))
        (if (b'.updateContext id' (·.setTopBinding binding')).guardHolds found.breakpoint binding' then
          (b'.updateContext id' (·.setTopBinding binding')).haltOnBreakpoint id' found position false
        else (.done, b'.updateContext id' (·.setTopBinding binding'))) := by
    have bound := opened.updateContext (f := (·.setTopBinding binding)) (g := (·.setTopBinding binding'))
      fun contexts => contexts.setTopBinding bindings
    rw [bound.guardHolds_eq _ bindings]
    split
    · exact bound.haltOnBreakpoint found position false
    · exact ⟨.done, bound⟩
  rw [method, receiver, enclosing]
  simp only [opened.findBreakpoint?_eq]
  split
  · exact ⟨.done, opened⟩
  · next found _ =>
      generalize (a'.context id).stack.head?.bind (·.binding) = own at kept ⊢
      generalize (b'.context id').stack.head?.bind (·.binding) = own' at kept ⊢
      cases kept with
      | none =>
          simp only [captured, captured']
          exact halts found bindings
      | some alike => exact halts found (.some alike)

theorem returnFrom : Alike m system thread id id' (a.updateContext id (·.returnFrom event.method))
    (b.updateContext id' (·.returnFrom event'.method)) := by
  have method : event'.method = event.method := by cases events; rfl
  rw [method]
  exact h.updateContext fun contexts => contexts.returnFrom event.method

theorem classOpen : Alike m system thread id id'
    ((a.updateContext id fun context =>
      { context with stack := context.stack.modifyTop fun frame => { frame with method := none } }).openFrame
        system id event position)
    ((b.updateContext id' fun context =>
      { context with stack := context.stack.modifyTop fun frame => { frame with method := none } }).openFrame
        system id' event' position) := by
  refine (h.updateContext fun contexts => contexts.modifyTop fun {x y} frame => ?_).openFrame events position
  cases frame with
  | intro bindings locals => exact .intro { x with method := none } bindings locals

theorem onRaise {className : String} {number number' : Nat} (stays : className ≠ "SystemExit") :
    Pieces m system thread id id'
      (a.onRaise system id event position (.exception className number))
      (b.onRaise system id' event' position (.exception className number')) := by
  have moved := h.updateContext (f := (·.moveTop event position false))
    (g := (·.moveTop event' position false)) fun contexts => contexts.moveTop events position false
  have receiver : event'.receiver = event.receiver := by cases events; rfl
  have isExit : (className == "SystemExit") = false := beq_eq_false_iff_ne.mpr stays
  unfold Debugger.onRaise
  generalize a.updateContext id (·.moveTop event position false) = a' at moved ⊢
  generalize b.updateContext id' (·.moveTop event' position false) = b' at moved ⊢
  have ancestors : b'.host.ancestors (.exception className number') =
      a'.host.ancestors (.exception className number) :=
    Host.ancestors_eq moved.parents_eq (.exception className number)
  have live := moved.live
  have live' : b'.settings.postMortem = false := by rw [moved.settings_eq, live]
  simp only [keepPostMortem, live, live', Bool.false_and, Bool.false_eq_true, if_false, Host.isExit,
    isExit, moved.catchpoint_eq, ancestors, receiver]
  split
  · exact ⟨.done, moved⟩
  · split
    · refine ⟨.catchpoint className number number' position event.receiver,
        moved.updateContext fun contexts => ?_⟩
      exact contexts.map (f := fun context => { context with reason := .catchpoint })
        (fun _ _ _ => rfl) fun _ => rfl
    · exact ⟨.done, moved⟩

end Alike

theorem alike_dispatchAt (h : Alike m system thread id id' a b) {event event' : Event}
    (events : event.Alike m event') (stays : event.isExit = false) (position : Position) (moved : Bool) :
    Pieces m system thread id id' (a.dispatchAt system id event position moved)
      (b.dispatchAt system id' event' position moved) := by
  have enclosing : event'.enclosingType = event.enclosingType := by cases events; rfl
  have opens (blockGiven : Bool) : b.opensNativeFrame event'.enclosingType blockGiven =
      a.opensNativeFrame event.enclosingType blockGiven := by
    unfold opensNativeFrame
    rw [h.settings_eq, enclosing]
  have kinds : event.kind.Alike event'.kind := by
    cases events with
    | intro kinds => exact kinds
  unfold dispatchAt
  generalize hkind : event.kind = kind at kinds
  generalize event'.kind = kind' at kinds
  cases kinds with
  | raise className number number' =>
      refine h.onRaise events position ?_
      have isExit : (className == "SystemExit") = false := by
        simpa only [Event.isExit, hkind, Host.isExit] using stays
      exact beq_eq_false_iff_ne.mp isExit
  | same _ other =>
      cases kind with
      | line conditional => exact h.onLine events position conditional moved
      | call => exact h.onCall events position
      | «return» => exact ⟨.done, h.returnFrom events⟩
      | classOpen => exact ⟨.done, h.classOpen events position⟩
      | classClose => exact ⟨.done, h.returnFrom events⟩
      | nativeCall blockGiven =>
          simp only [opens]
          split
          · exact ⟨.done, h.openFrame events position⟩
          · exact ⟨.done, h.updateContext fun contexts => contexts.moveTop events position true⟩
      | nativeReturn blockGiven =>
          simp only [opens]
          split
          · exact ⟨.done, h.returnFrom events⟩
          · exact ⟨.done, h⟩
      | raise exception => exact absurd rfl (other exception)

theorem alike_dispatch (h : Alike m system thread id id' a b) {event event' : Event}
    (events : event.Alike m event') (stays : event.isExit = false) :
    Pieces m system thread id id' (a.dispatch system id event) (b.dispatch system id' event') := by
  obtain ⟨skipped, last⟩ : (b.context id').skipped = (a.context id).skipped ∧
      (b.context id').lastPosition = (a.context id).lastPosition := by
    have context := h.context
    generalize a.context id = c at context
    generalize b.context id' = c' at context
    cases context
    exact ⟨rfl, rfl⟩
  obtain ⟨position, isLine, isReturn⟩ : event'.position = event.position ∧
      event'.kind.isLine = event.kind.isLine ∧ (event'.kind = .return ↔ event.kind = .return) := by
    cases events with
    | intro kinds =>
        refine ⟨rfl, ?_⟩
        generalize event.kind = kind at kinds
        cases kinds with
        | same => exact ⟨rfl, .rfl⟩
        | raise => exact ⟨rfl, ⟨nofun, nofun⟩⟩
  have noted := h.updateContext (f := (·.noteEvent event.position event.kind.isLine))
    (g := (·.noteEvent event.position event.kind.isLine)) fun contexts => contexts.noteEvent _ _
  unfold dispatch
  simp only [skipped, last, position, isLine, isReturn]
  split
  · exact ⟨.done, h⟩
  · split
    · next place _ => exact alike_dispatchAt noted events stays place _
    · split
      · exact ⟨.done, noted.returnFrom events⟩
      · exact ⟨.done, noted⟩

theorem alike_run (h : Alike m system thread id id' a b) {callback callback' : Callback}
    {next next' : Continuation}
    (calls : Outcome.Alike id id' (.call callback next) (.call callback' next')) :
    Pieces m system thread id id' (next.run a system id) (next'.run b system id') := by
  cases calls with
  | traced position receiver moved => exact h.checkLine position receiver moved
  | breakpoint bp position onLine => exact h.haltAt position onLine
  | catchpoint className number number' position receiver =>
      obtain ⟨binding, binding', captured, captured', bindings⟩ := h.captureBinding receiver
      simp only [Continuation.run, captured, captured']
      exact (h.updateContext fun contexts => contexts.setTopBinding bindings).halt position
  | halted position => exact ⟨.done, h⟩

end Debugger

end EventDebugger
