import EventDebugger.Proofs.Dispatch.Breakpoints
import EventDebugger.Proofs.Ticket.Preserved

/-!
# Properties of contexts that events keep

The event of a context keeps the properties of all other contexts, and of its own one those that depend on
nothing but the armed steps and that counting lines, halting and returning do not spoil. The contexts
that it makes are copies for post-mortems.

* `Debugger.spared_dispatch`: an event up to the first call of the front-end.
* `Debugger.spared_run`: an event from the return of a call of the front-end on.
-/

namespace EventDebugger

namespace Context

def steps (context : Context) : Countdown × Countdown × Option Nat × Option Nat :=
  (context.stopNext, context.stopLine, context.targetDepth, context.finishDepth)

structure Steady (P : Context → Prop) : Prop where
  congr : ∀ {context context'}, context'.steps = context.steps → P context → P context'
  counts : ∀ {context} moved, P context → P (context.countLine moved)
  clears : ∀ {context}, P context → P context.clearSteps
  returns : ∀ {context} method, P context → P (context.returnFrom method)

theorem Steady.neutral {P : Context → Prop} (steady : Steady P) : Neutral P where
  adjust {context} h _ _ _ _ _ := @Steady.congr P steady context _ rfl h
  initial {thread number ignored} _ _ _ h := @Steady.congr P steady (.initial thread number ignored) _ rfl h

theorem steps_savePosition (context : Context) : context.savePosition.steps = context.steps := by
  obtain ⟨_, _, _, _, eq⟩ := context.savePosition_eq
  rw [eq]
  rfl

structure Spared (P : Context → Prop) (id other : ContextId) : Prop where
  own : id = other → Steady P
  freezes : P (.initial default 0 false) → ∀ context scopes, P (freeze scopes context)

theorem Steady.spared {P : Context → Prop} (steady : Steady P) {id other : ContextId} : Spared P id other := by
  refine ⟨fun _ => steady, fun h context scopes => ?_⟩
  have same : (freeze scopes context).steps = (initial default 0 false).steps := rfl
  exact steady.congr same h

end Context

namespace Debugger

open Context

variable {P : Context → Prop} {id other : ContextId} (spared : Spared P id other) (d : Debugger) (system : Nat)

include spared

theorem spared_map (f : Context → Context) (hf : Steady P → ∀ {context}, P context → P (f context)) :
    Preserves P id d (d.updateContext other f) := by
  by_cases same : id = other
  · exact d.preserves_updateContext other (hf (spared.own same))
  · intro h
    rw [d.context_updateContext_ne f same]
    exact h

theorem spared_updateContext (f : Context → Context) (hf : ∀ context, (f context).steps = context.steps) :
    Preserves P id d (d.updateContext other f) :=
  spared_map spared d f fun steady _ h => steady.congr (hf _) h

theorem spared_openFrame (event : Event) (position : Position) :
    Preserves P id d (d.openFrame system other event position) := by
  have captured : Preserves P id d (d.newFrame system event position).2 := .of_contexts rfl
  exact captured.trans (spared_updateContext spared _ (·.push _) fun _ => rfl)

theorem spared_halt (position : Position) : Preserves P id d (d.halt other position).2 := by
  have noted : Preserves P id d { d with lastHalted := some (d.context other).number } := .of_contexts rfl
  exact noted.trans (spared_updateContext spared _ savePosition steps_savePosition)

theorem spared_haltAt (position : Position) (onLine : Bool) :
    Preserves P id d (d.haltAt other position onLine).2 := by
  simp only [haltAt]
  split
  · have cleared : Preserves P id d (d.updateContext other clearSteps) :=
      spared_map spared d clearSteps fun steady _ => steady.clears
    exact cleared.trans (spared_halt spared _ position)
  · exact spared_halt spared d position

theorem spared_haltOnBreakpoint (found : Found) (position : Position) (onLine : Bool) :
    Preserves P id d (d.haltOnBreakpoint other found position onLine).2 := by
  simp only [haltOnBreakpoint]
  split
  · exact (spared_updateContext spared d (fun context => { context with temporary := none })
      fun _ => rfl).trans (spared_haltAt spared _ position onLine)
  · exact spared_updateContext spared d _ fun _ => rfl

theorem spared_captureLine (receiver : Option Value) :
    Preserves P id d (d.captureLine system other receiver).2 := by
  have captured : Preserves P id d (d.captureBinding system receiver).2 := .of_contexts rfl
  exact captured.trans (spared_updateContext spared _
    (fun context => { context.setTopBinding _ with reason := .step }) fun _ => rfl)

theorem spared_checkLine (position : Position) (receiver : Option Value) (moved : Bool) :
    Preserves P id d (d.checkLine system other position receiver moved).2 := by
  have counted : Preserves P id d (d.updateContext other (·.countLine moved)) :=
    spared_map spared d _ fun steady _ => steady.counts moved
  have captured := counted.trans (spared_captureLine spared _ system receiver)
  simp only [checkLine]
  split
  · exact captured.trans (spared_haltAt spared _ position true)
  · split
    · exact counted
    · split
      · exact captured.trans (spared_haltOnBreakpoint spared _ _ position true)
      · exact captured

theorem spared_onLine (event : Event) (position : Position) (conditional moved : Bool) :
    Preserves P id d (d.onLine system other event position conditional moved).2 := by
  have placed : Preserves P id d
      (if (d.context other).stack.isEmpty then d.openFrame system other event position
        else d.updateContext other (·.moveTop event position false)) := by
    split
    · exact spared_openFrame spared d system event position
    · exact spared_updateContext spared d _ fun _ => rfl
  simp only [onLine]
  generalize (if (d.context other).stack.isEmpty then d.openFrame system other event position
    else d.updateContext other (·.moveTop event position false)) = d' at placed ⊢
  split
  · exact placed
  · split
    · exact placed
    · exact placed.trans (spared_checkLine spared d' system position event.receiver moved)

theorem spared_onCall (event : Event) (position : Position) :
    Preserves P id d (d.onCall system other event position).2 := by
  have opened : Preserves P id d (d.openFrame system other event position) :=
    spared_openFrame spared d system event position
  rw [onCall_eq]
  simp only
  split
  · exact opened
  · next found _ =>
      generalize d.openFrame system other event position = d' at opened ⊢
      have captured : Preserves P id d (d'.callBinding system other event.receiver).2 := by
        apply opened.trans
        simp only [callBinding]
        split <;> exact .of_contexts rfl
      generalize d'.callBinding system other event.receiver = bound at captured ⊢
      have bound := captured.trans (spared_updateContext spared _ (·.setTopBinding bound.1) fun _ => rfl)
      split
      · exact bound.trans (spared_haltOnBreakpoint spared _ found position false)
      · exact bound

theorem spared_keepPostMortem (event : Event) (position : Position) (exception : Value) :
    Preserves P id d (d.keepPostMortem system other event position exception).2 := by
  have attached (d : Debugger) (postMortem : PostMortem) :
      Preserves P id d (d.attachPostMortem exception postMortem) := by
    simp only [attachPostMortem]
    split
    · split <;> exact .of_contexts rfl
    · exact refl_of _ d
  have frozen (d : Debugger) (scopes : Scopes) :
      Preserves P id d (d.addContext ((d.context other).freeze scopes)).2 :=
    d.preserves_addContext fun h => spared.freezes h _ scopes
  simp only [keepPostMortem]
  split
  · have captured : Preserves P id d (d.captureBinding system event.receiver).2 := .of_contexts rfl
    exact (captured.trans (frozen _ _)).trans (attached _ _)
  · exact refl_of _ d

theorem spared_onRaise (event : Event) (position : Position) (exception : Value) :
    Preserves P id d (d.onRaise system other event position exception).2 := by
  have moved : Preserves P id d (d.updateContext other (·.moveTop event position false)) :=
    spared_updateContext spared d _ fun _ => rfl
  have kept := moved.trans (spared_keepPostMortem spared _ system event position exception)
  simp only [onRaise]
  split
  · exact kept.trans (.of_contexts (contexts_forceStop _))
  · split
    · exact kept
    · split
      · exact kept.trans (spared_updateContext spared _ _ fun _ => rfl)
      · exact kept

theorem spared_returnFrom (method : Option String) :
    Preserves P id d (d.updateContext other (·.returnFrom method)) :=
  spared_map spared d _ fun steady _ => steady.returns method

theorem spared_dispatchAt (event : Event) (position : Position) (moved : Bool) :
    Preserves P id d (d.dispatchAt system other event position moved).2 := by
  simp only [dispatchAt]
  split
  · exact spared_onLine spared d system event position _ moved
  · exact spared_onCall spared d system event position
  · exact spared_returnFrom spared d event.method
  · exact spared_returnFrom spared d event.method
  · exact (spared_updateContext spared d (fun context =>
      { context with stack := context.stack.modifyTop fun frame => { frame with method := none } })
      fun _ => rfl).trans (spared_openFrame spared _ system event position)
  · split
    · exact spared_openFrame spared d system event position
    · exact spared_updateContext spared d _ fun _ => rfl
  · split
    · exact spared_returnFrom spared d event.method
    · exact refl_of _ d
  · exact spared_onRaise spared d system event position _

theorem spared_dispatch (event : Event) : Preserves P id d (d.dispatch system other event).2 := by
  have noted : Preserves P id d
      (d.updateContext other (·.noteEvent event.position event.kind.isLine)) :=
    spared_updateContext spared d _ fun _ => rfl
  simp only [dispatch]
  split
  · exact refl_of _ d
  · split
    · exact noted.trans (spared_dispatchAt spared _ system event _ _)
    · split
      · exact noted.trans (spared_returnFrom spared _ event.method)
      · exact noted

theorem spared_run (next : Continuation) : Preserves P id d (next.run d system other).2 := by
  have bound (d : Debugger) (binding : Option Binding) :
      Preserves P id d (d.updateContext other (·.setTopBinding binding)) :=
    spared_updateContext spared d _ fun _ => rfl
  cases next with
  | lineTraced position receiver moved => exact spared_checkLine spared d system position receiver moved
  | breakpointReported position onLine => exact spared_haltAt spared d position onLine
  | exceptionReported position receiver binding =>
      simp only [Continuation.run]
      split
      · exact (bound d _).trans (spared_halt spared _ position)
      · have captured : Preserves P id d (d.captureBinding system receiver).2 := .of_contexts rfl
        exact (captured.trans (bound _ _)).trans (spared_halt spared _ position)
  | resumed => exact refl_of _ d

end Debugger

end EventDebugger
