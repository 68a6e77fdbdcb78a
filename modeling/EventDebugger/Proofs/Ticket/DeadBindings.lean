import EventDebugger.Proofs.Ticket.Snapshots

/-!
# Bindings of dead frames

The binding of a frame of a dead context is the one that the copied frame had: a copy of its variables, unless a
binding was captured for the frame before. A copy has the values that the variables had at the time of the raise. A
captured binding was copied along with its frame, and still reads the scope that it was captured in.

* `Context.frameBinding_of_copied`: the bindings of a copied context are those of the context.
* `World.binding_of_raise`: frames without a captured binding, in all runs that follow.
* `World.rebound_of_captured`: a captured binding of a dead frame reads a later assignment.
-/

namespace EventDebugger

namespace Context

variable {dead live : Context} {scopes : Scopes}

theorem frameBinding_of_copied (copied : dead.stack = live.stack.freeze scopes) (later : Scopes) (index : Int) :
    dead.frameBinding later index = live.frameBinding scopes index := by
  have depth : dead.depth = live.depth := by rw [Context.depth, copied, CallStack.length_freeze, Context.depth]
  have frames (i : Nat) : dead.stack[i]? = live.stack[i]?.map (Frame.freeze scopes) := by
    rw [copied, CallStack.freeze, List.getElem?_map]
  simp only [frameBinding, frame, depth, frames]
  cases checkFrame index live.depth with
  | error error => rfl
  | ok i =>
      simp only [bind, Except.bind]
      cases live.stack[i]? <;> rfl

theorem frameBinding_of_unbound {index : Int} {frame : Frame} (found : live.frame index = .ok frame)
    (unbound : frame.binding = none) :
    live.frameBinding scopes index = .ok ⟨frame.receiver.getD .nil, .copied (frame.visibleLocals scopes)⟩ := by
  simp only [frameBinding, found, bind, Except.bind, unbound, Option.getD_none]
  rfl

end Context

namespace World

variable {w w₀ : World} {s : Nat}

theorem frameBinding_of_raise (idle : ∀ s, w₀.tasks s = []) (own : w₀.debugger.host.OwnThreads)
    (tracked : w₀.debugger.WellTracked) (course : Course Anything w₀ w) {task : Task} {rest : List Task}
    {event : Event} {position : Position} {exception : Value} (tasks : w.tasks s = task :: rest)
    (stage : task.stage = .admitted event) (captures : w.debugger.Captures task.context event position exception) :
    let raised := w.proceed s task rest (w.debugger.dispatch s task.context event)
    ∃ kept, raised.debugger.postMortem? exception = some kept ∧ ∀ later, Course Anything raised later →
      later.debugger.isStarted → ∀ index,
        later.debugger.inspect kept.context (·.frameBinding later.debugger.host.scopes index) =
          (raised.debugger.context task.context).frameBinding raised.debugger.host.scopes index := by
  intro raised
  have lodged : w.Lodged := course.lodged (.of_idle idle own tracked)
  have known := (lodged.home s task (mem_innermost tasks) (by rw [stage]; rfl)).1
  obtain ⟨kept, attached⟩ := Debugger.attached_dispatch known s captures
  refine ⟨kept, attached.keeps, fun later course' active index => ?_⟩
  have aloof := course'.aloof (aloof_of_attached lodged tasks stage attached) (lodged.step (.dispatch tasks stage))
  have copied : (later.debugger.context kept.context).stack =
      (raised.debugger.context task.context).stack.freeze raised.debugger.host.scopes := by
    rw [aloof.stack]
    exact congrArg _ attached.live.symm
  rw [Debugger.inspect, if_pos active]
  exact Context.frameBinding_of_copied copied _ index

/-- A frame of the context that a raised exception keeps, for which no binding was captured: in all runs that follow,
its binding has the values that its variables had when they were copied, whatever is assigned later. -/
theorem binding_of_raise (idle : ∀ s, w₀.tasks s = []) (own : w₀.debugger.host.OwnThreads)
    (tracked : w₀.debugger.WellTracked) (course : Course Anything w₀ w) {task : Task} {rest : List Task}
    {event : Event} {position : Position} {exception : Value} (tasks : w.tasks s = task :: rest)
    (stage : task.stage = .admitted event) (captures : w.debugger.Captures task.context event position exception) :
    let raised := w.proceed s task rest (w.debugger.dispatch s task.context event)
    ∃ kept, raised.debugger.postMortem? exception = some kept ∧ ∀ later, Course Anything raised later →
      later.debugger.isStarted → ∀ index frame, (raised.debugger.context task.context).frame index = .ok frame →
        frame.binding = none → ∃ binding,
          later.debugger.inspect kept.context (·.frameBinding later.debugger.host.scopes index) = .ok binding ∧
            ∀ name, binding.lookup? later.debugger.host.scopes name =
              (frame.visibleLocals raised.debugger.host.scopes).get? name := by
  intro raised
  obtain ⟨kept, keeps, bindings⟩ := frameBinding_of_raise idle own tracked course tasks stage captures
  refine ⟨kept, keeps, fun later course' active index frame found unbound => ?_⟩
  exact ⟨_, (bindings later course' active index).trans (Context.frameBinding_of_unbound found unbound), fun _ => rfl⟩

theorem unrebound_of_reassigned : Course Anything unstarted raisingSoon ∧
    raisingSoon.debugger.Captures 0 (inScope (.raise (failure 1)) 2) ⟨"a.rb", 2⟩ (failure 1) ∧
    Course Anything raisedNow reassigned ∧ ∃ kept, raisedNow.debugger.postMortem? (failure 1) = some kept ∧
      reassigned.debugger.host.scopes.lookup? firstScope "x" = some (.int 2) ∧ ∃ binding,
        reassigned.debugger.inspect kept.context (·.frameBinding reassigned.debugger.host.scopes 0) = .ok binding ∧
          binding.lookup? reassigned.debugger.host.scopes "x" = some (.int 1) := by
  have course : Course Anything raisedNow reassigned := course_afterwards raisedNow _
  obtain ⟨kept, keeps, bindings⟩ := binding_of_raise (fun _ => rfl) Host.ownThreads_initial
    (.of_ended rfl) course_raisingSoon (show raisingSoon.tasks 0 = [raisingTask] from rfl) rfl captures_raisingSoon
  obtain ⟨binding, found, reads⟩ := bindings reassigned course rfl 0 _ rfl rfl
  exact ⟨course_raisingSoon, captures_raisingSoon, course, kept, keeps, rfl, binding, found, reads "x"⟩

/-! ## A captured binding -/

def executedBound : World := unstarted.afterwards ((0, .move (.request (.debugger .start))) :: (0, .keep true) ::
  (0, .move (.request (.debugger (.setKeepFrameBinding true)))) ::
    (Move.ofEvent (inScope (.line false) 1)).map fun move => (0, .move move))

def raisingBound : World := executedBound.afterwards
  [assigning executedBound 1, (0, .move (.arrive (inScope (.raise (failure 1)) 2))), (0, .move .ask)]

def raisedBound : World := raisingBound.proceed 0 raisingTask []
  (raisingBound.debugger.dispatch 0 0 (inScope (.raise (failure 1)) 2))

def reassignedBound : World := raisedBound.afterwards [(0, .move .release), assigning raisedBound 2]

/-- The captured binding of the dead frame reads the assignment after the raise; the variables of the frame do not. -/
theorem rebound_of_captured : Course Anything unstarted raisingBound ∧
    raisingBound.tasks 0 = [raisingTask] ∧
    raisingBound.debugger.Captures 0 (inScope (.raise (failure 1)) 2) ⟨"a.rb", 2⟩ (failure 1) ∧
    Course Anything raisedBound reassignedBound ∧ ∃ kept, raisedBound.debugger.postMortem? (failure 1) = some kept ∧
      (raisedBound.debugger.frameView kept.context 0).map (·.reading.locals) = .ok [("x", .int 1)] ∧
      (reassignedBound.debugger.frameView kept.context 0).map (·.reading.locals) = .ok [("x", .int 1)] ∧
      ∃ binding,
        reassignedBound.debugger.inspect kept.context (·.frameBinding reassignedBound.debugger.host.scopes 0) =
          .ok binding ∧ binding.lookup? reassignedBound.debugger.host.scopes "x" = some (.int 2) :=
  have course : Course Anything unstarted raisingBound :=
    (course_afterwards unstarted _).trans (course_afterwards executedBound _)
  ⟨course, rfl, ⟨rfl, ⟨_, _, rfl⟩, rfl, rfl, rfl, rfl⟩, course_afterwards raisedBound _, _, rfl, rfl, rfl, _, rfl,
    rfl⟩

end World

end EventDebugger
