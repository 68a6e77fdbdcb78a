import EventDebugger.Proofs.Calls
import EventDebugger.Proofs.Dispatch.Locality
import EventDebugger.Proofs.Host.Ancestry

/-!
# What the catch-point catches

A raise is reported to the front-end exactly if the exception does not end the program and the catch-point names
one of its ancestors.

* `Debugger.catchpoint_mem_callsOf_iff`: which raises are reported.
* `Debugger.declared_ancestors`: which those are, by what programs have declared.
-/

namespace EventDebugger.Debugger

variable {σ ε : Type} {d : Debugger} {system : Nat} {id : ContextId} {event : Event} {position : Position}
  {exception : Value}

theorem ancestors_keepPostMortem (d : Debugger) (system : Nat) (id : ContextId) (event : Event)
    (position : Position) (exception : Value) :
    (d.keepPostMortem system id event position exception).2.host.ancestors exception =
      d.host.ancestors exception := by
  apply Host.ancestors_eq
  rcases (d.touches_keepPostMortem system id event position exception).host with same | same
  · rw [same]
  · rw [same, Host.currentThread]
    split <;> rfl

def Catches (d : Debugger) (exception : Value) : Prop :=
  Host.isExit exception = false ∧ ∃ className, d.catchpoint = some className ∧ className ∈ d.host.ancestors exception

theorem onRaise_cases (d : Debugger) (system : Nat) (id : ContextId) (event : Event) (position : Position)
    (exception : Value) :
    (d.Catches exception ∧ ∃ (binding : Option Binding) (d' : Debugger), d.contexts.size ≤ d'.contexts.size ∧
      d.onRaise system id event position exception =
        (.call (.catchpoint id exception) (.exceptionReported position event.receiver binding),
          d'.updateContext id fun context => { context with reason := .catchpoint })) ∨
    (¬ d.Catches exception ∧ (d.onRaise system id event position exception).1 = .done) := by
  let moved := d.updateContext id (·.moveTop event position false)
  let kept := moved.keepPostMortem system id event position exception
  have touches := touches_keepPostMortem moved system id event position exception
  have ancestors : kept.2.host.ancestors exception = d.host.ancestors exception :=
    moved.ancestors_keepPostMortem system id event position exception
  have catchpoint : kept.2.catchpoint = d.catchpoint := congrArg (·.catchpoint) touches.rest
  have size : d.contexts.size ≤ kept.2.contexts.size :=
    Nat.le_trans (size_updateContext d id (·.moveTop event position false)).ge touches.size
  simp only [onRaise, moved, kept] at ancestors catchpoint ⊢
  by_cases exit : Host.isExit exception = true
  · right
    simp [Catches, exit]
  · cases is : d.catchpoint with
    | none =>
        right
        simp [Catches, exit, catchpoint, is]
    | some className =>
        by_cases named : className ∈ d.host.ancestors exception
        · left
          refine ⟨⟨by simpa using exit, className, is, named⟩, kept.1, kept.2, size, ?_⟩
          simp [kept, moved, exit, catchpoint, is, ancestors, named]
        · right
          simp [Catches, exit, catchpoint, is, ancestors, named]

theorem dispatch_raise (kind : event.kind = .raise exception) (at' : event.position = some position)
    (heeded : (d.context id).skipped = false) : d.dispatch system id event =
      (d.updateContext id (·.noteEvent (some position) false)).onRaise system id event position exception := by
  simp only [dispatch, heeded, at', dispatchAt, kind, Bool.false_eq_true, if_false, EventKind.isLine]

theorem catchpoint_mem_callsOf_iff (front : FrontEnd σ ε) (kind : event.kind = .raise exception)
    (at' : event.position = some position) (heeded : (d.context id).skipped = false) (state : σ) :
    .catchpoint id exception ∈ callsOf front system id event d state ↔ d.Catches exception := by
  have noted : (d.updateContext id (·.noteEvent (some position) false)).Catches exception ↔ d.Catches exception :=
    Iff.rfl
  rw [callsOf_eq, dispatch_raise kind at' heeded, ← noted]
  rcases onRaise_cases (d.updateContext id (·.noteEvent (some position) false)) system id event position exception with
    ⟨catches, binding, d', -, reported⟩ | ⟨misses, done⟩
  · simp [reported, Outcome.rank, Continuation.rank, Outcome.calls, catches]
  · simp [done, Outcome.rank, Outcome.calls, misses]

open Host (Round Rounds Lineage declaredParent? rootAncestors)

/-- Whatever programs have declared, a walk from the class of an exception along the parents ends. The classes
that it passed are the declared line of parents, and these with the ancestors of every object are the names of
which the catch-point must be one for the exception to be reported, if it does not end the program. -/
theorem declared_ancestors (programs : List Program) (className : String) :
    let host := programs.foldl Host.declare .initial
    (WellFounded fun w' w => Round host w w') ∧
    ∃ last, Rounds host ⟨[], some className⟩ last ∧ last.Over ∧
      Lineage (declaredParent? programs) className last.passed ∧
      ∀ (d : Debugger) (number : Nat), d.host.parents = host.parents →
        let exception := .exception className number
        d.host.ancestors exception = last.passed ++ rootAncestors ∧
        ∀ {σ ε : Type} (front : FrontEnd σ ε) (system : Nat) (id : ContextId) (event : Event) (position : Position)
          (state : σ), event.kind = .raise exception → event.position = some position →
          (d.context id).skipped = false →
          (.catchpoint id exception ∈ callsOf front system id event d state ↔
            className ≠ "SystemExit" ∧ ∃ name, d.catchpoint = some name ∧ name ∈ last.passed ++ rootAncestors) := by
  intro host
  obtain ⟨last, rounds, ended, passed⟩ := Host.ancestors_walk host className
  have declared : host.parent? = declaredParent? programs := funext (Host.parent?_declared programs)
  refine ⟨Host.wellFounded_round host, last, rounds, ended, declared ▸ Lineage.of_walk rounds ended, ?_⟩
  intro d number parents exception
  have ancestors : d.host.ancestors exception = last.passed ++ rootAncestors :=
    (Host.ancestors_eq parents exception).trans (passed number)
  refine ⟨ancestors, fun front system id event position state kind at' heeded => ?_⟩
  rw [catchpoint_mem_callsOf_iff front kind at' heeded, Catches, ancestors]
  simp [exception, Host.isExit]

def circular : Program := ⟨[], [⟨"A", some "B"⟩, ⟨"B", some "A"⟩, ⟨"StandardError", some "A"⟩], []⟩

def trapped : Debugger :=
  { Debugger.initial .standard with
    host := [circular].foldl Host.declare .initial
    contexts := #[{ Context.initial ⟨1, "main"⟩ 1 false with
      stack := [⟨none, none, ⟨"a.rb", 1⟩, none, none, none, .live none⟩] }]
    catchpoint := some "B" }

def raiseInCircle : Event :=
  { Event.ofKind (.raise (.exception "RuntimeError" 1)) with position := some ⟨"a.rb", 1⟩ }

theorem caught_in_circle :
    trapped.host.parents = ([circular].foldl Host.declare .initial).parents ∧
    (raiseInCircle.kind = .raise (.exception "RuntimeError" 1) ∧ raiseInCircle.position = some ⟨"a.rb", 1⟩ ∧
      (trapped.context 0).skipped = false) ∧
    trapped.host.ancestors (.exception "RuntimeError" 1) =
      ["RuntimeError", "StandardError", "A", "B", "Object", "Kernel", "BasicObject"] ∧
    .catchpoint 0 (.exception "RuntimeError" 1) ∈
      callsOf (fun _ _ => return .ok () : FrontEnd Unit Error) 0 0 raiseInCircle trapped () := by
  obtain ⟨-, last, -, -, -, caught⟩ := declared_ancestors [circular] "RuntimeError"
  obtain ⟨ancestors, reported⟩ := caught trapped 1 rfl
  have list : trapped.host.ancestors (.exception "RuntimeError" 1) =
      ["RuntimeError", "StandardError", "A", "B", "Object", "Kernel", "BasicObject"] := by decide
  have named : "B" ∈ last.passed ++ rootAncestors := by
    rw [← ancestors, list]
    decide
  refine ⟨rfl, ⟨rfl, rfl, rfl⟩, list, ?_⟩
  exact (reported _ 0 0 raiseInCircle ⟨"a.rb", 1⟩ () rfl rfl rfl).mpr ⟨by decide, "B", rfl, named⟩

end EventDebugger.Debugger
