import EventDebugger.Debugger.Handling
import EventDebugger.Proofs.Host.Binding

/-!
# Events are local

The event of a thread changes the context of that thread and leaves the contexts of all others, the
session, the settings and the catch-point alone. The only exception is the raise of the exit exception,
which also ends the session.

* `Debugger.touches_dispatch`: an event up to the first call of the front-end.
* `Debugger.touches_run`: an event from the return of a call of the front-end on.
-/

namespace EventDebugger

def Context.traits (context : Context) : Thread × Nat × Bool × Bool × Bool × Bool × Bool × Bool × Nat :=
  (context.thread, context.number, context.suspended, context.tracing, context.skipped, context.ignored,
    context.dead, context.wasRunning, context.temporaryCount)

def Event.isExit (event : Event) : Bool :=
  match event.kind with
  | .raise exception => Host.isExit exception
  | _ => false

/-! ## What an event changes in a context -/

namespace Context

theorem countLine_eq (context : Context) (moved : Bool) : ∃ next line stepped,
    context.countLine moved = { context with stopNext := next, stopLine := line, stepped := stepped } := by
  simp only [countLine]
  split
  · exact ⟨_, _, _, rfl⟩
  · split
    · exact ⟨_, _, _, rfl⟩
    · split <;> exact ⟨_, _, _, rfl⟩

theorem savePosition_eq (context : Context) : ∃ last moved stepped forced, context.savePosition =
    { context with lastPosition := last, moved := moved, stepped := stepped, forced := forced } := by
  simp only [savePosition]
  split <;> exact ⟨_, _, _, _, rfl⟩

theorem returnFrom_eq (context : Context) (method : Option String) : ∃ next finish, context.returnFrom method =
    { context with stopNext := next, finishDepth := finish, stack := context.stack.popMatching method } := by
  simp only [returnFrom]
  split <;> exact ⟨_, _, rfl⟩

theorem traits_countLine (moved : Bool) (context : Context) :
    (context.countLine moved).traits = context.traits := by
  obtain ⟨_, _, _, eq⟩ := context.countLine_eq moved
  rw [eq]
  rfl

theorem traits_savePosition (context : Context) : context.savePosition.traits = context.traits := by
  obtain ⟨_, _, _, _, eq⟩ := context.savePosition_eq
  rw [eq]
  rfl

theorem traits_returnFrom (method : Option String) (context : Context) :
    (context.returnFrom method).traits = context.traits := by
  obtain ⟨_, _, eq⟩ := context.returnFrom_eq method
  rw [eq]
  rfl

end Context

namespace Debugger

/-! ## Contexts by address -/

theorem context_updateContext_ne (d : Debugger) {id other : ContextId} (f : Context → Context)
    (ne : other ≠ id) : (d.updateContext id f).context other = d.context other := by
  simp only [context, updateContext, Array.getD_eq_getD_getElem?, Array.getElem?_modify,
    if_neg (Ne.symm ne)]

theorem context_updateContext_self (d : Debugger) {id : ContextId} (f : Context → Context)
    (known : id < d.contexts.size) : (d.updateContext id f).context id = f (d.context id) := by
  rw [context_updateContext d id id f known, if_pos rfl]

theorem size_updateContext (d : Debugger) (id : ContextId) (f : Context → Context) :
    (d.updateContext id f).contexts.size = d.contexts.size := Array.size_modify

theorem updateContext_unknown (d : Debugger) {id : ContextId} (f : Context → Context)
    (unknown : d.contexts.size ≤ id) (other : ContextId) :
    (d.updateContext id f).context other = d.context other := by
  simp only [context, updateContext, Array.getD_eq_getD_getElem?, Array.getElem?_modify]
  split
  · next same =>
      subst same
      simp [unknown]
  · rfl

theorem isOwn_updateContext (d : Debugger) (id : ContextId) (found : Found) {f : Context → Context}
    (kept : ∀ context, (f context).temporary = context.temporary ∧
      (f context).temporaryCount = context.temporaryCount) :
    found.isOwn ((d.updateContext id f).context id) = found.isOwn (d.context id) := by
  have same : found.isOwn (f (d.context id)) = found.isOwn (d.context id) := by
    cases found with
    | temporary bp number => simp only [Found.isOwn, kept]
    | listed bp => rfl
  by_cases known : id < d.contexts.size
  · rw [d.context_updateContext_self f known, same]
  · rw [d.updateContext_unknown f (Nat.le_of_not_lt known)]

theorem context_addContext (d : Debugger) (context : Context) {other : ContextId}
    (known : other < d.contexts.size) : (d.addContext context).2.context other = d.context other := by
  simp [Debugger.context, addContext, Array.getD_eq_getD_getElem?, Array.getElem?_push_lt known, known]

theorem context_addContext_new (d : Debugger) (context : Context) :
    (d.addContext context).2.context d.contexts.size = context := by
  simp [Debugger.context, addContext, Array.getD_eq_getD_getElem?]

/-! ## Post-mortems -/

theorem attachPostMortem_eq (d : Debugger) (exception : Value) (postMortem : PostMortem) :
    ∃ postMortems, d.attachPostMortem exception postMortem = { d with postMortems } := by
  simp only [attachPostMortem]
  split
  · split <;> exact ⟨_, rfl⟩
  · exact ⟨_, rfl⟩

theorem contexts_attachPostMortem (d : Debugger) (exception : Value) (postMortem : PostMortem) :
    (d.attachPostMortem exception postMortem).contexts = d.contexts := by
  obtain ⟨_, attached⟩ := d.attachPostMortem_eq exception postMortem
  rw [attached]

theorem context_attachPostMortem (d : Debugger) (exception : Value) (postMortem : PostMortem)
    (id : ContextId) : (d.attachPostMortem exception postMortem).context id = d.context id := by
  rw [context, contexts_attachPostMortem, context]

theorem context_keepPostMortem {d : Debugger} {id : ContextId} (known : id < d.contexts.size) (system : Nat)
    (event : Event) (position : Position) (exception : Value) :
    (d.keepPostMortem system id event position exception).2.context id = d.context id := by
  simp only [keepPostMortem]
  split
  · have known' : id < (d.captureBinding system event.receiver).2.contexts.size := known
    rw [context_attachPostMortem, context_addContext _ _ known']
    rfl
  · rfl

/-! ## What an event may change -/

structure Touches (system : Nat) (id : ContextId) (d d' : Debugger) : Prop where
  rest : d' = { d with
    host := d'.host, contexts := d'.contexts, lastHalted := d'.lastHalted, postMortems := d'.postMortems }
  host : d.host.Met system d'.host
  size : d.contexts.size ≤ d'.contexts.size
  others : ∀ other < d.contexts.size, other ≠ id → d'.context other = d.context other
  traits : ∀ other < d.contexts.size, (d'.context other).traits = (d.context other).traits
  /-- Without post-mortems nothing is kept. -/
  kept : d.settings.postMortem = false →
    d'.postMortems = d.postMortems ∧ d'.contexts.size = d.contexts.size

namespace Touches

variable {system : Nat} {id : ContextId} {d d' d'' : Debugger}

theorem refl (system : Nat) (id : ContextId) (d : Debugger) : Touches system id d d :=
  ⟨rfl, .inl rfl, Nat.le_refl _, fun _ _ _ => rfl, fun _ _ => rfl, fun _ => ⟨rfl, rfl⟩⟩

theorem trans (first : Touches system id d d') (second : Touches system id d' d'') :
    Touches system id d d'' := by
  have settings : d'.settings = d.settings := congrArg (·.settings) first.rest
  refine ⟨?_, first.host.trans second.host, Nat.le_trans first.size second.size, ?_, ?_, fun off => ?_⟩
  · have rest := second.rest
    rw [first.rest] at rest
    exact rest
  · intro other known ne
    rw [second.others other (Nat.lt_of_lt_of_le known first.size) ne, first.others other known ne]
  · intro other known
    rw [second.traits other (Nat.lt_of_lt_of_le known first.size), first.traits other known]
  · obtain ⟨entries, size⟩ := first.kept off
    obtain ⟨entries', size'⟩ := second.kept (settings.symm ▸ off)
    exact ⟨entries'.trans entries, size'.trans size⟩

theorem session (h : Touches system id d d') : d'.session = d.session := congrArg (·.session) h.rest

theorem settings (h : Touches system id d d') : d'.settings = d.settings :=
  congrArg (·.settings) h.rest

theorem grows (h : Touches system id d d') : d.host.Grows d'.host := h.host.grows

end Touches

variable (d : Debugger) (system : Nat) (id : ContextId)

theorem touches_updateContext (f : Context → Context) (hf : ∀ context, (f context).traits = context.traits) :
    Touches system id d (d.updateContext id f) := by
  refine ⟨rfl, .inl rfl, Nat.le_of_eq (d.size_updateContext id f).symm,
    fun other _ ne => d.context_updateContext_ne f ne, fun other known => ?_,
    fun _ => ⟨rfl, d.size_updateContext id f⟩⟩
  by_cases same : other = id
  · subst same
    rw [d.context_updateContext_self f known, hf]
  · rw [d.context_updateContext_ne f same]

/-! ## Parts of dispatch -/

theorem touches_captureBinding (receiver : Option Value) :
    Touches system id d (d.captureBinding system receiver).2 := by
  refine ⟨rfl, ?_, Nat.le_refl _, fun _ _ _ => rfl, fun _ _ => rfl, fun _ => ⟨rfl, rfl⟩⟩
  cases receiver with
  | none => exact .inl rfl
  | some receiver =>
      right
      simp only [captureBinding, Host.createBinding?, Host.createBinding]
      split <;> rfl

theorem touches_openFrame (event : Event) (position : Position) :
    Touches system id d (d.openFrame system id event position) :=
  (d.touches_captureBinding system id _).trans
    (touches_updateContext _ _ _ (·.push _) fun _ => rfl)

theorem touches_halt (position : Position) : Touches system id d (d.halt id position).2 := by
  have noted : Touches system id d { d with lastHalted := some (d.context id).number } :=
    ⟨rfl, .inl rfl, Nat.le_refl _, fun _ _ _ => rfl, fun _ _ => rfl, fun _ => ⟨rfl, rfl⟩⟩
  exact noted.trans (touches_updateContext _ _ _ Context.savePosition Context.traits_savePosition)

theorem touches_haltAt (position : Position) (onLine : Bool) :
    Touches system id d (d.haltAt id position onLine).2 := by
  simp only [haltAt]
  split
  · exact (d.touches_updateContext system id Context.clearSteps fun _ => rfl).trans
      (touches_halt _ _ _ _)
  · exact d.touches_halt system id position

theorem touches_haltOnBreakpoint (found : Found) (position : Position) (onLine : Bool) :
    Touches system id d (d.haltOnBreakpoint id found position onLine).2 := by
  simp only [haltOnBreakpoint]
  split
  · exact (d.touches_updateContext system id (fun context => { context with temporary := none })
      fun _ => rfl).trans (touches_haltAt _ _ _ _ _)
  · exact d.touches_updateContext system id (fun context => { context with reason := .breakpoint })
      fun _ => rfl

theorem isOwn_captureLine (receiver : Option Value) (found : Found) :
    found.isOwn ((d.captureLine system id receiver).2.context id) = found.isOwn (d.context id) :=
  isOwn_updateContext (d.captureBinding system receiver).2 id found
    (f := fun context => { context.setTopBinding _ with reason := .step }) fun _ => ⟨rfl, rfl⟩

theorem touches_captureLine (receiver : Option Value) :
    Touches system id d (d.captureLine system id receiver).2 :=
  (d.touches_captureBinding system id receiver).trans
    (touches_updateContext _ _ _ (fun context => { context.setTopBinding _ with reason := .step })
      fun _ => rfl)

theorem touches_checkLine (position : Position) (receiver : Option Value) (moved : Bool) :
    Touches system id d (d.checkLine system id position receiver moved).2 := by
  have counted := d.touches_updateContext system id (·.countLine moved) (Context.traits_countLine moved)
  have captured := counted.trans (touches_captureLine _ system id receiver)
  simp only [checkLine]
  split
  · exact captured.trans (touches_haltAt _ _ _ _ true)
  · split
    · exact counted
    · split
      · exact captured.trans (touches_haltOnBreakpoint _ _ _ _ _ _)
      · exact captured

/-! ## Events -/

variable (event : Event) (position : Position)

theorem touches_moveTop (native : Bool) :
    Touches system id d (d.updateContext id (·.moveTop event position native)) :=
  touches_updateContext _ _ _ _ fun _ => rfl

theorem touches_onLine (conditional moved : Bool) :
    Touches system id d (d.onLine system id event position conditional moved).2 := by
  have placed : Touches system id d
      (if (d.context id).stack.isEmpty then d.openFrame system id event position
        else d.updateContext id (·.moveTop event position false)) := by
    split
    · exact d.touches_openFrame system id event position
    · exact d.touches_moveTop system id event position false
  simp only [onLine]
  generalize (if (d.context id).stack.isEmpty then d.openFrame system id event position
    else d.updateContext id (·.moveTop event position false)) = d' at placed ⊢
  split
  · exact placed
  · split
    · exact placed
    · exact placed.trans (touches_checkLine _ _ _ _ _ _)

theorem touches_onCall : Touches system id d (d.onCall system id event position).2 := by
  have opened := d.touches_openFrame system id event position
  simp only [onCall]
  split
  · exact opened
  · next found _ =>
      generalize d.openFrame system id event position = d' at opened ⊢
      have bound (binding : Option Binding) (d' : Debugger) :
          Touches system id d' (d'.updateContext id (·.setTopBinding binding)) :=
        touches_updateContext _ _ _ _ fun _ => rfl
      split
      · split
        · exact (opened.trans (bound _ d')).trans (touches_haltOnBreakpoint _ _ _ _ _ _)
        · exact opened.trans (bound _ d')
      · have captured := opened.trans (d'.touches_captureBinding system id event.receiver)
        split
        · exact (captured.trans (bound _ _)).trans (touches_haltOnBreakpoint _ _ _ _ _ _)
        · exact captured.trans (bound _ _)

theorem touches_addContext (context : Context) (on : d.settings.postMortem = true) :
    Touches system id d (d.addContext context).2 := by
  refine ⟨rfl, .inl rfl, ?_, fun other known _ => d.context_addContext context known,
    fun other known => by rw [d.context_addContext context known], fun off => ?_⟩
  · simp [addContext]
  · rw [on] at off
    cases off

theorem touches_attachPostMortem (exception : Value) (postMortem : PostMortem)
    (on : d.settings.postMortem = true) :
    Touches system id d (d.attachPostMortem exception postMortem) := by
  have kept {entries : List (Nat × PostMortem)} (off : d.settings.postMortem = false) :
      entries = d.postMortems ∧ d.contexts.size = d.contexts.size := by
    rw [on] at off
    cases off
  simp only [attachPostMortem]
  split
  · split <;> exact ⟨rfl, .inl rfl, Nat.le_refl _, fun _ _ _ => rfl, fun _ _ => rfl, kept⟩
  · exact .refl _ _ _

theorem touches_keepPostMortem (exception : Value) :
    Touches system id d (d.keepPostMortem system id event position exception).2 := by
  simp only [keepPostMortem]
  split
  · next wanted =>
      have on : (d.captureBinding system event.receiver).2.settings.postMortem = true :=
        (Bool.and_eq_true_iff.mp wanted).1
      refine (d.touches_captureBinding system id event.receiver).trans ?_
      exact (touches_addContext _ _ _ _ on).trans (touches_attachPostMortem _ _ _ _ _ on)
  · exact .refl _ _ _

theorem touches_onRaise (exception : Value) (stays : Host.isExit exception = false) :
    Touches system id d (d.onRaise system id event position exception).2 := by
  have kept := (d.touches_moveTop system id event position false).trans
    (touches_keepPostMortem _ system id event position exception)
  simp only [onRaise, stays]
  split
  · contradiction
  · split
    · exact kept
    · split
      · exact kept.trans
          (touches_updateContext _ _ _ (fun context => { context with reason := .catchpoint })
            fun _ => rfl)
      · exact kept

theorem onRaise_exit (exception : Value) (exits : Host.isExit exception = true) :
    ∃ d', Touches system id d d' ∧ d.onRaise system id event position exception = (.done, d'.forceStop) := by
  refine ⟨_, (d.touches_moveTop system id event position false).trans
    (touches_keepPostMortem _ system id event position exception), ?_⟩
  simp only [onRaise, exits, if_true]

theorem touches_returnFrom (method : Option String) :
    Touches system id d (d.updateContext id (·.returnFrom method)) :=
  touches_updateContext _ _ _ _ (Context.traits_returnFrom method)

theorem touches_dispatchAt (moved : Bool) (stays : event.isExit = false) :
    Touches system id d (d.dispatchAt system id event position moved).2 := by
  simp only [dispatchAt]
  split
  · exact d.touches_onLine system id event position _ moved
  · exact d.touches_onCall system id event position
  · exact d.touches_returnFrom system id event.method
  · exact d.touches_returnFrom system id event.method
  · refine (d.touches_updateContext system id (fun context =>
      { context with stack := context.stack.modifyTop fun frame => { frame with method := none } })
      fun _ => rfl).trans ?_
    exact touches_openFrame _ _ _ event position
  · split
    · exact d.touches_openFrame system id event position
    · exact d.touches_moveTop system id event position true
  · split
    · exact d.touches_returnFrom system id event.method
    · exact .refl _ _ _
  · next exception kind =>
      refine d.touches_onRaise system id event position exception ?_
      simpa only [Event.isExit, kind] using stays

theorem touches_noteEvent :
    Touches system id d (d.updateContext id (·.noteEvent event.position event.kind.isLine)) :=
  touches_updateContext _ _ _ _ fun _ => rfl

theorem touches_dispatch (stays : event.isExit = false) :
    Touches system id d (d.dispatch system id event).2 := by
  have noted := d.touches_noteEvent system id event
  simp only [dispatch]
  split
  · exact .refl _ _ _
  · split
    · exact noted.trans (touches_dispatchAt _ _ _ _ _ _ stays)
    · split
      · exact noted.trans (touches_returnFrom _ _ _ _)
      · exact noted

theorem dispatch_exit (exits : event.isExit = true) :
    ∃ d', Touches system id d d' ∧ ((d.dispatch system id event).2 = d' ∨
      d.dispatch system id event = (.done, d'.forceStop)) := by
  have noted := d.touches_noteEvent system id event
  obtain ⟨exception, kind⟩ : ∃ exception, event.kind = .raise exception := by
    cases h : event.kind with
    | raise exception => exact ⟨exception, rfl⟩
    | _ => simp [Event.isExit, h] at exits
  simp only [dispatch]
  split
  · exact ⟨d, .refl _ _ _, .inl rfl⟩
  · split
    · next position _ =>
        have isExit : Host.isExit exception = true := by simpa only [Event.isExit, kind] using exits
        obtain ⟨d', kept, exit⟩ := onRaise_exit _ system id event position exception isExit
        refine ⟨d', noted.trans kept, .inr ?_⟩
        simp only [dispatchAt, kind]
        exact kind ▸ exit
    · have notReturn : event.kind ≠ .return := by
        rw [kind]
        nofun
      exact ⟨_, noted, .inl (by rw [if_neg notReturn])⟩

theorem context_dispatch_ne (event : Event) {other : ContextId} (known : other < d.contexts.size)
    (ne : other ≠ id) : (d.dispatch system id event).2.context other = d.context other := by
  cases exits : event.isExit with
  | false => exact (d.touches_dispatch system id event exits).others other known ne
  | true =>
      obtain ⟨d', touched, same | ended⟩ := d.dispatch_exit system id event exits
      · rw [same]
        exact touched.others other known ne
      · rw [ended, ← touched.others other known ne]
        simp only [forceStop]
        split <;> rfl

theorem touches_run (next : Continuation) : Touches system id d (next.run d system id).2 := by
  cases next with
  | lineTraced position receiver moved => exact touches_checkLine d system id position receiver moved
  | breakpointReported position onLine => exact touches_haltAt d system id position onLine
  | exceptionReported position receiver binding =>
      simp only [Continuation.run]
      split
      · exact (touches_updateContext _ _ _ (·.setTopBinding _) fun _ => rfl).trans
          (touches_halt _ _ _ position)
      · exact ((d.touches_captureBinding system id receiver).trans
          (touches_updateContext _ _ _ (·.setTopBinding _) fun _ => rfl)).trans
          (touches_halt _ _ _ position)
  | resumed => exact .refl _ _ _

end Debugger

end EventDebugger
