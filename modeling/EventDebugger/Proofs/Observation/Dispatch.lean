import EventDebugger.Proofs.Dispatch.Reasons
import EventDebugger.Proofs.Observation.Bare

/-!
# Events under observation

An event of a bound thread is handled alike in two debuggers that share what matters. A frame may have kept
its binding in one of them only: the guard of a breakpoint then reads a binding that is captured now, which is
the same.

* `Debugger.Shares.dispatch`: an event up to the first call of the front-end, if lines are traced alike.
* `Debugger.Shares.run`: an event from the return of a call of the front-end on.
-/

namespace EventDebugger

open Context (Bares)

namespace Debugger.Shares

variable {traces : Bool} {d e : Debugger} {id : ContextId}

theorem done (h : d.Shares traces e) : Both traces (Outcome.done, d) (.done, e) := ⟨rfl, h⟩

theorem findBreakpoint?_eq (h : d.Shares traces e) (id : ContextId) (p : Breakpoint → Bool) :
    e.findBreakpoint? id p = d.findBreakpoint? id p :=
  findBreakpoint?_congr h.session (h.reads id (·.moved) fun _ _ => rfl)
    (h.reads id (·.temporary) fun _ _ => rfl) (h.reads id (·.temporaryCount) fun _ _ => rfl) p

theorem guardHolds_eq (h : d.Shares traces e) (bp : Breakpoint) (binding : Option Binding) :
    e.guardHolds bp binding = d.guardHolds bp binding := guardHolds_congr h.host bp binding

theorem captureBinding (h : d.Shares traces e) (system : Nat) (receiver : Option Value) :
    Both traces (d.captureBinding system receiver) (e.captureBinding system receiver) := by
  unfold Debugger.captureBinding
  rw [h.host]
  exact ⟨rfl, h.change (fun d => { d with host := _ }) fun _ _ => rfl⟩

theorem forceStop (h : d.Shares traces e) : d.forceStop.Shares traces e.forceStop := by
  refine h.change Debugger.forceStop fun _ d => ?_
  obtain ⟨host, settings, contexts, startCount, session⟩ := d
  cases session <;> rfl

/-! ## Parts of dispatch -/

theorem captureBinding_bound {system : Nat} {thread : Thread} (bound : d.host.boundTo? system = some thread)
    (receiver : Option Value) : (d.captureBinding system receiver).2 = d := by
  have host := (d.touches_captureBinding system 0 receiver).host.eq_of_bound bound
  exact congrArg (fun host => ({ d with host } : Debugger)) host

theorem openFrame (h : d.Shares traces e) {system : Nat} {thread : Thread}
    (bound : d.host.boundTo? system = some thread) (id : ContextId) (event : Event) (position : Position) :
    (d.openFrame system id event position).Shares traces (e.openFrame system id event position) := by
  have opened {d : Debugger} (bound : d.host.boundTo? system = some thread) :
      d.openFrame system id event position =
        d.updateContext id (·.push (d.newFrame system event position).1) := by
    have same : (d.newFrame system event position).2 = d := captureBinding_bound bound _
    have pushed := congrArg (Debugger.updateContext · id (·.push (d.newFrame system event position).1)) same
    exact pushed
  rw [opened bound, opened (h.host ▸ bound)]
  exact h.updateContext id (.push _) (.push _)

theorem halt (h : d.Shares traces e) (id : ContextId) (position : Position) :
    Both traces (d.halt id position) (e.halt id position) := by
  refine ⟨rfl, ?_⟩
  have number : (e.context id).number = (d.context id).number := h.reads id (·.number) fun _ _ => rfl
  have noted := h.change (fun d => { d with lastHalted := some (e.context id).number }) fun _ _ => rfl
  unfold Debugger.halt
  rw [← number]
  exact noted.updateContext id .savePosition .savePosition

theorem haltAt (h : d.Shares traces e) (id : ContextId) (position : Position) (onLine : Bool) :
    Both traces (d.haltAt id position onLine) (e.haltAt id position onLine) := by
  unfold Debugger.haltAt
  split
  · exact (h.updateContext id .clearSteps .clearSteps).halt id position
  · exact h.halt id position

theorem haltOnBreakpoint (h : d.Shares traces e) (id : ContextId) (found : Found) (position : Position)
    (onLine : Bool) :
    Both traces (d.haltOnBreakpoint id found position onLine) (e.haltOnBreakpoint id found position onLine) := by
  have own : found.isOwn (e.context id) = found.isOwn (d.context id) :=
    h.reads id (found.isOwn ·) fun _ _ => by cases found <;> rfl
  simp only [Debugger.haltOnBreakpoint, own]
  split
  · refine haltAt (h.updateContext id (g := ({ · with temporary := none })) ?_ ?_) id position onLine
    · exact fun _ => rfl
    · exact fun _ => rfl
  · refine ⟨rfl, h.updateContext id (g := ({ · with reason := .breakpoint })) ?_ ?_⟩
    · exact fun _ => rfl
    · exact fun _ => rfl

theorem captureLine (h : d.Shares traces e) (system : Nat) (id : ContextId) (receiver : Option Value) :
    Both traces (d.captureLine system id receiver) (e.captureLine system id receiver) := by
  obtain ⟨binding, captured⟩ := h.captureBinding system receiver
  exact ⟨binding, captured.updateContext id (.captured _) (.captured _)⟩

theorem checkLine (h : d.Shares traces e) (system : Nat) (id : ContextId) (position : Position)
    (receiver : Option Value) (moved : Bool) :
    Both traces (d.checkLine system id position receiver moved)
      (e.checkLine system id position receiver moved) := by
  have counted := h.updateContext id (.countLine moved) (.countLine moved)
  simp only [Debugger.checkLine]
  generalize d.updateContext id (·.countLine moved) = d' at counted ⊢
  generalize e.updateContext id (·.countLine moved) = e' at counted ⊢
  obtain ⟨binding, captured⟩ := counted.captureLine system id receiver
  have due : (e'.context id).isStepDue = (d'.context id).isStepDue :=
    counted.reads id (·.isStepDue) fun _ _ => rfl
  rw [due, counted.findBreakpoint?_eq]
  split
  · exact captured.haltAt id position true
  · split
    · exact counted.done
    · next found _ =>
        simp only [binding, captured.guardHolds_eq]
        split
        · exact captured.haltOnBreakpoint id found position true
        · exact captured.done

/-! ## Events -/

section

variable (h : d.Shares traces e) {system : Nat} {thread : Thread}
  (bound : d.host.boundTo? system = some thread)
include h bound

theorem placed (id : ContextId) (event : Event) (position : Position) :
    (d.placed system id event position).Shares traces (e.placed system id event position) := by
  have noted := h.updateContext id (.noteEvent event.position event.kind.isLine)
    (.noteEvent event.position event.kind.isLine)
  have same : (d.updateContext id (·.noteEvent event.position event.kind.isLine)).host = d.host := rfl
  unfold Debugger.placed
  dsimp only
  generalize d.updateContext id (·.noteEvent event.position event.kind.isLine) = d' at noted same ⊢
  rw [← same] at bound
  generalize e.updateContext id (·.noteEvent event.position event.kind.isLine) = e' at noted ⊢
  have empty : (e'.context id).stack.isEmpty = (d'.context id).stack.isEmpty :=
    noted.reads id (·.stack.isEmpty) fun _ => Context.isEmpty_bare
  rw [empty]
  split
  · split
    · exact noted.openFrame bound id event position
    · exact noted.updateContext id (.moveTop event position false) (.moveTop event position false)
  · exact noted

theorem onCall (id : ContextId) (event : Event) (position : Position) :
    Both traces (d.onCall system id event position) (e.onCall system id event position) := by
  have opened := h.openFrame bound id event position
  have captured := (h.captureBinding system event.receiver).same
  -- The binding of the frame, and a debugger that stays as it is.
  have binds {d : Debugger} (bound : d.host.boundTo? system = some thread)
      (known : id < (d.openFrame system id event position).contexts.size) :
      (d.openFrame system id event position).callBinding system id event.receiver =
        ((d.captureBinding system event.receiver).1, d.openFrame system id event position) := by
    have touches := d.touches_openFrame system id event position
    have bound' : (d.openFrame system id event position).host.boundTo? system = some thread := by
      rw [touches.host.eq_of_bound bound]
      exact bound
    have known : id < d.contexts.size := by
      unfold Debugger.openFrame at known
      rw [size_updateContext] at known
      exact known
    refine Prod.ext (callBinding_openFrame known system event position).1 ?_
    unfold callBinding
    split
    · rfl
    · exact captureBinding_bound bound' event.receiver
  rw [onCall_eq, onCall_eq]
  dsimp only
  rw [opened.findBreakpoint?_eq]
  cases sought : (d.openFrame system id event position).findBreakpoint? id
      (·.matchesMethod (enteredType event) event.method) with
  | none => exact opened.done
  | some found =>
      have known : id < (d.openFrame system id event position).contexts.size := by
        refine known_of_moved ?_
        by_contra still
        simp only [findBreakpoint?, still] at sought
        cases sought
      have bare := opened.updateContext id (.setTopBinding (d.captureBinding system event.receiver).1)
        (.setTopBinding (d.captureBinding system event.receiver).1)
      dsimp only
      rw [binds bound known, binds (h.host ▸ bound) (opened.size ▸ known), captured, bare.guardHolds_eq]
      split
      · exact bare.haltOnBreakpoint id found position false
      · exact bare.done

end

theorem attachPostMortem (h : d.Shares traces e) (exception : Value) (kept : PostMortem) :
    (d.attachPostMortem exception kept).Shares traces (e.attachPostMortem exception kept) := by
  refine h.change (·.attachPostMortem exception kept) fun traces d => ?_
  have same : (d.bare traces).postMortems = d.postMortems := rfl
  unfold Debugger.attachPostMortem
  cases exception with
  | exception className number =>
      simp only [same]
      split <;> rfl
  | _ => rfl

theorem keepPostMortem (h : d.Shares traces e) (system : Nat) (id : ContextId) (event : Event)
    (position : Position) (exception : Value) :
    Both traces (d.keepPostMortem system id event position exception)
      (e.keepPostMortem system id event position exception) := by
  obtain ⟨binding, captured⟩ := h.captureBinding system event.receiver
  simp only [Debugger.keepPostMortem, h.postMortem]
  generalize d.captureBinding system event.receiver = x at binding captured ⊢
  generalize e.captureBinding system event.receiver = y at binding captured ⊢
  have copy : ((y.2.context id).freeze y.2.host.scopes).bare true =
      ((x.2.context id).freeze x.2.host.scopes).bare traces := by
    rw [Bares.freeze, Bares.freeze, captured.context, captured.host]
  split
  · obtain ⟨address, added⟩ := captured.addContext copy
    simp only [binding, address]
    exact ⟨rfl, added.attachPostMortem exception _⟩
  · exact ⟨rfl, h⟩

theorem onRaise (h : d.Shares traces e) (system : Nat) (id : ContextId) (event : Event) (position : Position)
    (exception : Value) :
    Both traces (d.onRaise system id event position exception)
      (e.onRaise system id event position exception) := by
  have moved := h.updateContext id (.moveTop event position false) (.moveTop event position false)
  simp only [Debugger.onRaise]
  generalize d.updateContext id (·.moveTop event position false) = d' at moved ⊢
  generalize e.updateContext id (·.moveTop event position false) = e' at moved ⊢
  obtain ⟨binding, kept⟩ := moved.keepPostMortem system id event position exception
  rw [binding, kept.catchpoint, kept.host]
  split
  · exact kept.forceStop.done
  · split
    · exact kept.done
    · split
      · refine ⟨rfl, kept.updateContext id (g := ({ · with reason := .catchpoint })) ?_ ?_⟩
        · exact fun _ => rfl
        · exact fun _ => rfl
      · exact kept.done

theorem returnFrom (h : d.Shares traces e) (id : ContextId) (method : Option String) :
    Both traces (Outcome.done, d.updateContext id (·.returnFrom method))
      (.done, e.updateContext id (·.returnFrom method)) :=
  (h.updateContext id (.returnFrom method) (.returnFrom method)).done

section

variable (h : d.Shares traces e) {system : Nat} {thread : Thread}
  (bound : d.host.boundTo? system = some thread)
include h bound

theorem dispatchAt (id : ContextId) {event : Event}
    (other : ∀ conditional, event.kind ≠ .line conditional) (position : Position) (moved : Bool) :
    Both traces (d.dispatchAt system id event position moved)
      (e.dispatchAt system id event position moved) := by
  simp only [Debugger.dispatchAt, h.opensNativeFrame]
  split
  · next conditional kind => exact absurd kind (other conditional)
  · exact h.onCall bound id event position
  · exact h.returnFrom id event.method
  · exact h.returnFrom id event.method
  · have left := h.updateContext id
      (.modifyTop (f := ({ · with method := none })) (g := ({ · with method := none })) fun _ => rfl)
      (.modifyTop (f := ({ · with method := none })) fun _ => rfl)
    exact (left.openFrame bound id event position).done
  · split
    · exact (h.openFrame bound id event position).done
    · exact (h.updateContext id (.moveTop event position true) (.moveTop event position true)).done
  · split
    · exact h.returnFrom id event.method
    · exact h.done
  · exact h.onRaise system id event position _

theorem dispatch (id : ContextId) (event : Event)
    (alike : (d.context id).skipped = false → event.position.isSome → event.kind = .line false →
      traces = true) :
    Both traces (d.dispatch system id event) (e.dispatch system id event) := by
  have skipped : (e.context id).skipped = (d.context id).skipped := h.reads id (·.skipped) fun _ _ => rfl
  have last : (e.context id).lastPosition = (d.context id).lastPosition :=
    h.reads id (·.lastPosition) fun _ _ => rfl
  have noted := h.updateContext id (.noteEvent event.position event.kind.isLine)
    (.noteEvent event.position event.kind.isLine)
  cases heeded : (d.context id).skipped with
  | true =>
      simp only [Debugger.dispatch, skipped, heeded, if_true]
      exact h.done
  | false =>
      rw [heeded] at skipped
      cases at' : event.position with
      | none =>
          simp only [Debugger.dispatch, skipped, heeded, at', Bool.false_eq_true, if_false] at noted ⊢
          split
          · exact noted.returnFrom id event.method
          · exact noted.done
      | some position =>
          have placed := h.placed bound id event position
          by_cases line : ∃ conditional, event.kind = .line conditional
          · obtain ⟨conditional, kind⟩ := line
            cases conditional with
            | true =>
                rw [dispatch_conditional system id event position d heeded at' kind,
                  dispatch_conditional system id event position e skipped at' kind]
                exact placed.done
            | false =>
                rw [dispatch_line system id event position d heeded at' kind,
                  dispatch_line system id event position e skipped at' kind]
                obtain rfl := alike heeded (Option.isSome_of_eq_some at') kind
                simp only [placed.tracing, placed.tracing_context, Bool.true_and, last]
                split
                · exact ⟨rfl, placed⟩
                · exact placed.checkLine system id position event.receiver _
          · simp only [Debugger.dispatch, skipped, heeded, at', last, Bool.false_eq_true,
              if_false] at noted ⊢
            exact noted.dispatchAt bound id (fun conditional kind => line ⟨conditional, kind⟩) position _

end

theorem run (h : d.Shares traces e) (system : Nat) (id : ContextId) (next : Continuation) :
    Both traces (next.run d system id) (next.run e system id) := by
  cases next with
  | lineTraced position receiver moved => exact h.checkLine system id position receiver moved
  | breakpointReported position onLine => exact h.haltAt id position onLine
  | exceptionReported position receiver binding =>
      have halts {d e : Debugger} (h : d.Shares traces e) (binding : Option Binding) : Both traces
          ((d.updateContext id (·.setTopBinding binding)).halt id position)
          ((e.updateContext id (·.setTopBinding binding)).halt id position) :=
        (h.updateContext id (.setTopBinding binding) (.setTopBinding binding)).halt id position
      cases binding with
      | some binding => exact halts h (some binding)
      | none =>
          obtain ⟨binding, captured⟩ := h.captureBinding system receiver
          simp only [Continuation.run, binding]
          exact halts captured _
  | resumed => exact h.done

end Debugger.Shares

theorem Debugger.rank_dispatch_le (d : Debugger) (system : Nat) (id : ContextId) {event : Event}
    (other : (d.context id).skipped = false → event.position.isSome → event.kind ≠ .line false) :
    (d.dispatch system id event).1.rank ≤ 2 := by
  cases skipped : (d.context id).skipped with
  | true =>
      simp only [dispatch, skipped, if_true]
      exact Nat.zero_le 2
  | false =>
      cases at' : event.position with
      | none =>
          simp only [dispatch, skipped, at', Bool.false_eq_true, if_false]
          split <;> exact Nat.zero_le 2
      | some position =>
          have other := other skipped (Option.isSome_of_eq_some at')
          simp only [dispatch, skipped, at', Bool.false_eq_true, if_false, dispatchAt]
          split
          · next conditional kind =>
              cases conditional with
              | true => exact Nat.zero_le 2
              | false => exact absurd kind other
          · rw [onCall_eq]
            dsimp only
            split
            · exact Nat.zero_le 2
            · split
              · exact rank_haltOnBreakpoint_le ..
              · exact Nat.zero_le 2
          · exact Nat.zero_le 2
          · exact Nat.zero_le 2
          · exact Nat.zero_le 2
          · split <;> exact Nat.zero_le 2
          · split <;> exact Nat.zero_le 2
          · simp only [onRaise]
            split
            · exact Nat.zero_le 2
            · split
              · exact Nat.zero_le 2
              · split
                · exact Nat.le_refl 2
                · exact Nat.zero_le 2

end EventDebugger
