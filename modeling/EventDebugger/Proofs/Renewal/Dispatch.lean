import EventDebugger.Proofs.Renewal.Renaming

/-!
# Events up to numbering

The event of a thread is handled in a debugger as in the one that it renames, and calls the front-end for the
same, up to the numbering of the context and of the breakpoint.

* `Renames.dispatch`: an event up to the first call of the front-end.
* `Renames.run`: an event from the return of a call of the front-end on.
-/

namespace EventDebugger

open Debugger (Found)

namespace Renaming

variable (ρ : Renaming)

def callback : Callback → Callback
  | .line id position => .line (ρ.address id) position
  | .breakpoint id bp => .breakpoint (ρ.address id) (ρ.breakpoint bp)
  | .catchpoint id exception => .catchpoint (ρ.address id) exception
  | .tracing id position => .tracing (ρ.address id) position

def outcome : Outcome → Outcome
  | .done => .done
  | .call callback next => .call (ρ.callback callback) next

def found : Found → Found
  | .temporary bp number => .temporary bp number
  | .listed bp => .listed (ρ.breakpoint bp)

end Renaming

/-! ## What events do to contexts -/

namespace Context.Unnumbered

theorem noteEvent (position : Option Position) (isLine : Bool) : Unnumbered (·.noteEvent position isLine) :=
  ⟨fun _ _ => rfl, fun _ => rfl, fun _ => rfl⟩

theorem moveTop (event : Event) (position : Position) (native : Bool) : Unnumbered (·.moveTop event position native) :=
  ⟨fun _ _ => rfl, fun _ => rfl, fun _ => rfl⟩

theorem push (frame : Frame) : Unnumbered (·.push frame) := ⟨fun _ _ => rfl, fun _ => rfl, fun _ => rfl⟩

theorem setTopBinding (binding : Option Binding) : Unnumbered (·.setTopBinding binding) :=
  ⟨fun _ _ => rfl, fun _ => rfl, fun _ => rfl⟩

theorem clearSteps : Unnumbered Context.clearSteps := ⟨fun _ _ => rfl, fun _ => rfl, fun _ => rfl⟩

theorem countLine (moved : Bool) : Unnumbered (·.countLine moved) := by
  refine ⟨fun context number => ?_, fun context => ?_, fun context => ?_⟩
  · have target : (context.renumber number).targetDepth = context.targetDepth := rfl
    have depth : (context.renumber number).depth = context.depth := rfl
    simp only [Context.countLine, target, depth]
    split
    · rfl
    · split
      · rfl
      · split <;> rfl
  all_goals
    obtain ⟨_, _, _, eq⟩ := context.countLine_eq moved
    rw [eq]

theorem savePosition : Unnumbered Context.savePosition := by
  refine ⟨fun context number => ?_, fun context => ?_, fun context => ?_⟩
  · have stack : (context.renumber number).stack = context.stack := rfl
    simp only [Context.savePosition, stack]
    split <;> rfl
  all_goals
    obtain ⟨_, _, _, _, eq⟩ := context.savePosition_eq
    rw [eq]

theorem returnFrom (method : Option String) : Unnumbered (·.returnFrom method) := by
  refine ⟨fun context number => ?_, fun context => ?_, fun context => ?_⟩
  · have finish : (context.renumber number).finishDepth = context.finishDepth := rfl
    have depth : (context.renumber number).depth = context.depth := rfl
    simp only [Context.returnFrom, finish, depth]
    split <;> rfl
  all_goals
    obtain ⟨_, _, eq⟩ := context.returnFrom_eq method
    rw [eq]

end Context.Unnumbered

namespace Renames

variable {ρ : Renaming} {a b : Debugger} {id : ContextId}

structure Pieces (ρ : Renaming) (x y : Outcome × Debugger) : Prop where
  outcome : y.1 = ρ.outcome x.1
  renames : Renames ρ x.2 y.2

theorem done (h : Renames ρ a b) : Pieces ρ (.done, a) (.done, b) := ⟨rfl, h⟩

theorem isStarted (h : Renames ρ a b) : b.isStarted = a.isStarted := by
  have session := h.session
  rw [Debugger.isStarted, Debugger.isStarted]
  generalize a.session = x at session
  generalize b.session = y at session
  cases session <;> rfl

theorem findBreakpoint?_eq (h : Renames ρ a b) (id : ContextId) {p : Breakpoint → Bool}
    (unnumbered : ∀ bp number, p { bp with id := number } = p bp) :
    b.findBreakpoint? (ρ.address id) p = (a.findBreakpoint? id p).map ρ.found := by
  have listed : b.findListed? p = (a.findListed? p).map ρ.found := by
    have session := h.session
    simp only [Debugger.findListed?]
    generalize a.session = x at session
    generalize b.session = y at session
    cases session with
    | none => rfl
    | some alike =>
        simp only [alike.registry, List.find?_map]
        have same : (p ∘ ρ.breakpoint) = p := funext fun bp => unnumbered bp _
        rw [same]
        cases List.find? p _ <;> rfl
  have moved : (b.context (ρ.address id)).moved = (a.context id).moved := h.reads id _ fun _ _ => rfl
  have temporary : (b.context (ρ.address id)).temporary = (a.context id).temporary := h.reads id _ fun _ _ => rfl
  have count : (b.context (ρ.address id)).temporaryCount = (a.context id).temporaryCount := h.reads id _ fun _ _ => rfl
  simp only [Debugger.findBreakpoint?, moved, temporary, count]
  split
  · split
    · split
      · rfl
      · exact listed
    · exact listed
  · rfl

theorem guardHolds_eq (h : Renames ρ a b) (found : Found) (binding : Option Binding) :
    b.guardHolds (ρ.found found).breakpoint binding = a.guardHolds found.breakpoint binding := by
  have read : b.readVariable binding = a.readVariable binding := by
    funext name
    simp only [Debugger.readVariable, h.host]
  have guard : (ρ.found found).breakpoint.guard = found.breakpoint.guard := by cases found <;> rfl
  simp only [Debugger.guardHolds, guard, read]

theorem forceStop (h : Renames ρ a b) : Renames ρ a.forceStop b.forceStop := by
  have stopped : Renames ρ { a with startCount := 0 } { b with startCount := 0 } := { h with startCount := rfl }
  simp only [Debugger.forceStop, stopped.isStarted]
  split
  · refine { stopped with wakeups := ?_, session := .none }
    simp only [h.wakeups]
    exact Nat.add_right_comm ..
  · exact stopped

theorem attachPostMortem (h : Renames ρ a b) (exception : Value) (kept kept' : PostMortem) :
    Renames ρ (a.attachPostMortem exception kept) (b.attachPostMortem exception kept') := by
  obtain ⟨_, attached⟩ := a.attachPostMortem_eq exception kept
  obtain ⟨_, attached'⟩ := b.attachPostMortem_eq exception kept'
  rw [attached, attached']
  exact { h with }

/-! ## Parts of dispatch -/

theorem openFrame (h : Renames ρ a b) (system : Nat) (id : ContextId) (event : Event) (position : Position) :
    Renames ρ (a.openFrame system id event position) (b.openFrame system (ρ.address id) event position) := by
  obtain ⟨binding, captured⟩ := h.captureBinding system (if a.settings.keepFrameBinding then event.receiver else none)
  simp only [Debugger.openFrame, Debugger.newFrame, h.settings, binding]
  exact captured.updateContext id (.push _)

variable (known : id < a.contexts.size)

include known

theorem halt (h : Renames ρ a b) (position : Position) :
    Pieces ρ (a.halt id position) (b.halt (ρ.address id) position) := by
  refine ⟨rfl, ?_⟩
  have noted : Renames ρ { a with lastHalted := some (a.context id).number }
      { b with lastHalted := some (b.context (ρ.address id)).number } := by
    refine { h with halted := fun other _ => ?_, numbered := { h.numbered with halted := ?_ } }
    · simp only [h.number known, Option.some.injEq, Nat.add_right_cancel_iff]
    · rintro _ ⟨⟩
      exact h.numbered.counted id known
  exact noted.updateContext id .savePosition

theorem haltAt (h : Renames ρ a b) (position : Position) (onLine : Bool) :
    Pieces ρ (a.haltAt id position onLine) (b.haltAt (ρ.address id) position onLine) := by
  simp only [Debugger.haltAt]
  split
  · refine halt ?_ (h.updateContext id .clearSteps) position
    rw [Debugger.size_updateContext]
    exact known
  · exact halt known h position

theorem haltOnBreakpoint (h : Renames ρ a b) {found : Found} (own : found.isOwn (a.context id) = found.isTemporary)
    (position : Position) (onLine : Bool) :
    Pieces ρ (a.haltOnBreakpoint id found position onLine)
      (b.haltOnBreakpoint (ρ.address id) (ρ.found found) position onLine) := by
  have own' : (ρ.found found).isOwn (b.context (ρ.address id)) = (ρ.found found).isTemporary := by
    cases found with
    | temporary bp number => exact (h.reads id (Found.isOwn (.temporary bp number)) fun _ _ => rfl).trans own
    | listed bp => rfl
  rw [Debugger.haltOnBreakpoint_of_own own, Debugger.haltOnBreakpoint_of_own own']
  cases found with
  | temporary bp number =>
      refine haltAt ?_ (h.updateContext id (f := ({ · with temporary := none }))
        ⟨fun _ _ => rfl, fun _ => rfl, fun _ => rfl⟩) position onLine
      rw [Debugger.size_updateContext]
      exact known
  | listed bp =>
      exact ⟨rfl, h.updateContext id (f := ({ · with reason := .breakpoint }))
        ⟨fun _ _ => rfl, fun _ => rfl, fun _ => rfl⟩⟩

omit known in
theorem captureLine (h : Renames ρ a b) (system : Nat) (id : ContextId) (receiver : Option Value) :
    (b.captureLine system (ρ.address id) receiver).1 = (a.captureLine system id receiver).1 ∧
      Renames ρ (a.captureLine system id receiver).2 (b.captureLine system (ρ.address id) receiver).2 := by
  obtain ⟨binding, captured⟩ := h.captureBinding system receiver
  simp only [Debugger.captureLine, binding, true_and]
  exact captured.updateContext id (f := fun context => { context.setTopBinding _ with reason := .step })
    ⟨fun _ _ => rfl, fun _ => rfl, fun _ => rfl⟩

theorem checkLine (h : Renames ρ a b) (system : Nat) (position : Position) (receiver : Option Value) (moved : Bool) :
    Pieces ρ (a.checkLine system id position receiver moved)
      (b.checkLine system (ρ.address id) position receiver moved) := by
  have counted := h.updateContext id (.countLine moved)
  have known' : id < (a.updateContext id (·.countLine moved)).contexts.size := by
    rw [Debugger.size_updateContext]
    exact known
  simp only [Debugger.checkLine]
  generalize a.updateContext id (·.countLine moved) = a' at counted known' ⊢
  generalize b.updateContext (ρ.address id) (·.countLine moved) = b' at counted ⊢
  obtain ⟨binding, captured⟩ := counted.captureLine system id receiver
  have captured' := Nat.lt_of_lt_of_le known' (a'.touches_captureLine system id receiver).size
  have due : (b'.context (ρ.address id)).isStepDue = (a'.context id).isStepDue := counted.reads id _ fun _ _ => rfl
  rw [due, counted.findBreakpoint?_eq id fun _ _ => rfl]
  split
  · exact haltAt captured' captured position true
  · cases met : a'.findBreakpoint? id (·.matchesPosition position) with
    | none => exact counted.done
    | some found =>
        simp only [Option.map_some, binding, captured.guardHolds_eq]
        split
        · have own : found.isOwn ((a'.captureLine system id receiver).2.context id) = found.isTemporary :=
            (a'.isOwn_captureLine system id receiver found).trans (Debugger.isOwn_of_found met)
          exact haltOnBreakpoint captured' captured own position true
        · exact captured.done

/-! ## Events -/

theorem onLine (h : Renames ρ a b) (system : Nat) (event : Event) (position : Position) (conditional moved : Bool) :
    Pieces ρ (a.onLine system id event position conditional moved)
      (b.onLine system (ρ.address id) event position conditional moved) := by
  have empty : (b.context (ρ.address id)).stack.isEmpty = (a.context id).stack.isEmpty :=
    h.reads id (·.stack.isEmpty) fun _ _ => rfl
  have placed : Renames ρ
      (if (a.context id).stack.isEmpty then a.openFrame system id event position
        else a.updateContext id (·.moveTop event position false))
      (if (a.context id).stack.isEmpty then b.openFrame system (ρ.address id) event position
        else b.updateContext (ρ.address id) (·.moveTop event position false)) := by
    split
    · exact h.openFrame system id event position
    · exact h.updateContext id (.moveTop event position false)
  have known' : id < (if (a.context id).stack.isEmpty then a.openFrame system id event position
      else a.updateContext id (·.moveTop event position false)).contexts.size := by
    split
    · exact Nat.lt_of_lt_of_le known (a.touches_openFrame system id event position).size
    · rw [Debugger.size_updateContext]
      exact known
  simp only [Debugger.onLine, empty]
  generalize (if (a.context id).stack.isEmpty then a.openFrame system id event position
    else a.updateContext id (·.moveTop event position false)) = a' at placed known' ⊢
  generalize (if (a.context id).stack.isEmpty then b.openFrame system (ρ.address id) event position
    else b.updateContext (ρ.address id) (·.moveTop event position false)) = b' at placed ⊢
  have tracing : (b'.context (ρ.address id)).tracing = (a'.context id).tracing := placed.reads id _ fun _ _ => rfl
  rw [placed.settings, tracing]
  split
  · exact placed.done
  · split
    · exact ⟨rfl, placed⟩
    · exact checkLine known' placed system position event.receiver moved

theorem onCall (h : Renames ρ a b) (system : Nat) (event : Event) (position : Position) :
    Pieces ρ (a.onCall system id event position) (b.onCall system (ρ.address id) event position) := by
  have opened := h.openFrame system id event position
  have known' := Nat.lt_of_lt_of_le known (a.touches_openFrame system id event position).size
  simp only [Debugger.onCall]
  generalize a.openFrame system id event position = a' at opened known' ⊢
  generalize b.openFrame system (ρ.address id) event position = b' at opened ⊢
  have kept : ((b'.context (ρ.address id)).stack.head?.bind (·.binding)) =
      (a'.context id).stack.head?.bind (·.binding) := opened.reads id (·.stack.head?.bind (·.binding)) fun _ _ => rfl
  have halts {found : Found} {a'' b'' : Debugger} (renames : Renames ρ a'' b'') (size : id < a''.contexts.size)
      (own : found.isOwn (a''.context id) = found.isTemporary) (binding : Option Binding) : Pieces ρ
      (if (a''.updateContext id (·.setTopBinding binding)).guardHolds found.breakpoint binding then
        (a''.updateContext id (·.setTopBinding binding)).haltOnBreakpoint id found position false
      else (.done, a''.updateContext id (·.setTopBinding binding)))
      (if (b''.updateContext (ρ.address id) (·.setTopBinding binding)).guardHolds (ρ.found found).breakpoint
          binding then
        (b''.updateContext (ρ.address id) (·.setTopBinding binding)).haltOnBreakpoint (ρ.address id) (ρ.found found)
          position false
      else (.done, b''.updateContext (ρ.address id) (·.setTopBinding binding))) := by
    have bound := renames.updateContext id (.setTopBinding binding)
    rw [bound.guardHolds_eq]
    split
    · refine haltOnBreakpoint ?_ bound ?_ position false
      · rw [Debugger.size_updateContext]
        exact size
      · exact (Debugger.isOwn_updateContext a'' id found (f := (·.setTopBinding binding)) fun _ => ⟨rfl, rfl⟩).trans own
    · exact bound.done
  rw [opened.findBreakpoint?_eq id fun _ _ => rfl]
  cases met : a'.findBreakpoint? id _ with
  | none => exact opened.done
  | some found =>
      have own := Debugger.isOwn_of_found met
      simp only [Option.map_some, kept]
      cases (a'.context id).stack.head?.bind (·.binding) with
      | some binding => exact halts opened known' own (some binding)
      | none =>
          obtain ⟨binding, captured⟩ := opened.captureBinding system event.receiver
          simp only [binding]
          exact halts captured known' own _

theorem keepPostMortem (h : Renames ρ a b) (system : Nat) (event : Event) (position : Position)
    (exception : Value) :
    (b.keepPostMortem system (ρ.address id) event position exception).1 =
        (a.keepPostMortem system id event position exception).1 ∧
      Renames ρ (a.keepPostMortem system id event position exception).2
        (b.keepPostMortem system (ρ.address id) event position exception).2 := by
  obtain ⟨binding, captured⟩ := h.captureBinding system event.receiver
  have contexts : (a.captureBinding system event.receiver).2.contexts = a.contexts := rfl
  simp only [Debugger.keepPostMortem, h.settings]
  generalize a.captureBinding system event.receiver = x at binding captured contexts ⊢
  generalize b.captureBinding system event.receiver = y at binding captured ⊢
  have known' : id < x.2.contexts.size := contexts.symm ▸ known
  have copy : (y.2.context (ρ.address id)).freeze y.2.host.scopes =
      ρ.context ((x.2.context id).freeze x.2.host.scopes) := by
    rw [captured.contexts id known', captured.host]
    rfl
  split
  · rw [copy]
    obtain ⟨-, added⟩ := captured.addContext ((x.2.context id).freeze x.2.host.scopes)
      (captured.numbered.positive id known') (captured.numbered.counted id known') fun live => by cases live
    exact ⟨binding, added.attachPostMortem exception _ _⟩
  · exact ⟨rfl, h⟩

theorem onRaise (h : Renames ρ a b) (system : Nat) (event : Event) (position : Position) (exception : Value) :
    Pieces ρ (a.onRaise system id event position exception)
      (b.onRaise system (ρ.address id) event position exception) := by
  have moved := h.updateContext id (.moveTop event position false)
  have known' : id < (a.updateContext id (·.moveTop event position false)).contexts.size := by
    rw [Debugger.size_updateContext]
    exact known
  simp only [Debugger.onRaise]
  generalize a.updateContext id (·.moveTop event position false) = a' at moved known' ⊢
  generalize b.updateContext (ρ.address id) (·.moveTop event position false) = b' at moved ⊢
  obtain ⟨binding, kept⟩ := moved.keepPostMortem known' system event position exception
  rw [binding, kept.catchpoint, kept.host]
  split
  · exact kept.forceStop.done
  · split
    · exact kept.done
    · split
      · exact ⟨rfl, kept.updateContext id (f := ({ · with reason := .catchpoint }))
          ⟨fun _ _ => rfl, fun _ => rfl, fun _ => rfl⟩⟩
      · exact kept.done

theorem dispatchAt (h : Renames ρ a b) (system : Nat) (event : Event) (position : Position) (moved : Bool) :
    Pieces ρ (a.dispatchAt system id event position moved)
      (b.dispatchAt system (ρ.address id) event position moved) := by
  have opens : b.opensNativeFrame = a.opensNativeFrame := by
    funext type blockGiven
    simp only [Debugger.opensNativeFrame, h.settings]
  simp only [Debugger.dispatchAt, opens]
  split
  · exact onLine known h system event position _ moved
  · exact onCall known h system event position
  · exact (h.updateContext id (.returnFrom event.method)).done
  · exact (h.updateContext id (.returnFrom event.method)).done
  · have left := h.updateContext id
      (f := fun context => { context with stack := context.stack.modifyTop ({ · with method := none }) })
      ⟨fun _ _ => rfl, fun _ => rfl, fun _ => rfl⟩
    exact (left.openFrame system id event position).done
  · split
    · exact (h.openFrame system id event position).done
    · exact (h.updateContext id (.moveTop event position true)).done
  · split
    · exact (h.updateContext id (.returnFrom event.method)).done
    · exact h.done
  · exact onRaise known h system event position _

theorem dispatch (h : Renames ρ a b) (system : Nat) (event : Event) :
    Pieces ρ (a.dispatch system id event) (b.dispatch system (ρ.address id) event) := by
  have skipped : (b.context (ρ.address id)).skipped = (a.context id).skipped := h.reads id _ fun _ _ => rfl
  have last : (b.context (ρ.address id)).lastPosition = (a.context id).lastPosition := h.reads id _ fun _ _ => rfl
  have noted := h.updateContext id (.noteEvent event.position event.kind.isLine)
  simp only [Debugger.dispatch, skipped, last]
  split
  · exact h.done
  · split
    · refine dispatchAt ?_ noted system event _ _
      rw [Debugger.size_updateContext]
      exact known
    · split
      · exact (noted.updateContext id (.returnFrom event.method)).done
      · exact noted.done

theorem run (h : Renames ρ a b) (system : Nat) (next : Continuation) :
    Pieces ρ (next.run a system id) (next.run b system (ρ.address id)) := by
  cases next with
  | lineTraced position receiver moved => exact checkLine known h system position receiver moved
  | breakpointReported position onLine => exact haltAt known h position onLine
  | exceptionReported position receiver binding =>
      have halts {a' b' : Debugger} (renames : Renames ρ a' b') (size : id < a'.contexts.size)
          (binding : Option Binding) : Pieces ρ ((a'.updateContext id (·.setTopBinding binding)).halt id position)
          ((b'.updateContext (ρ.address id) (·.setTopBinding binding)).halt (ρ.address id) position) := by
        refine halt ?_ (renames.updateContext id (.setTopBinding binding)) position
        rw [Debugger.size_updateContext]
        exact size
      cases binding with
      | some binding => exact halts h known (some binding)
      | none =>
          obtain ⟨binding, captured⟩ := h.captureBinding system receiver
          simp only [Continuation.run, binding]
          exact halts captured known _
  | resumed => exact h.done

end Renames

end EventDebugger
