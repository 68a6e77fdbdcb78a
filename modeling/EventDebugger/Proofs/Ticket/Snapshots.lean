import EventDebugger.Proofs.Dispatch.Capture
import EventDebugger.Proofs.Ticket.Courses

/-!
# Copies of contexts last

The context that a raised exception keeps belongs to no thread: no event is dispatched in it, and no code is
loaded into it. Commands on it change no frame. What is read of its frames is therefore what was read of
those of the raising context at the time of the raise, as long as the debugger is active; while it is not,
nothing is read at all.

* `World.reading_of_raise`: the copy that a raise makes, in all runs that follow.
* `World.unread_of_exit`: the copy after the exit of the program.
-/

namespace EventDebugger

namespace World

variable {w w' : World} {s : Nat} {move : Move} {act : Act} {dead : ContextId} {stack : CallStack}

structure Aloof (dead : ContextId) (stack : CallStack) (w : World) : Prop where
  known : dead < w.debugger.contexts.size
  untracked : ∀ thread, w.debugger.contextOf? thread ≠ some dead
  eventless : ∀ s, ∀ task ∈ w.tasks s, task.stage.isInspecting = false → task.context ≠ dead
  stack : (w.debugger.context dead).stack = stack

namespace Aloof

theorem untracked_after (h : w.Aloof dead stack) (tracked : w.debugger.WellTracked) {d : Debugger}
    (lodges : w.debugger.Lodges d) (thread : Thread) : d.contextOf? thread ≠ some dead := by
  intro found
  rcases lodges.origin tracked found with old | new
  · exact h.untracked thread old
  · exact absurd h.known (Nat.not_lt_of_le new)

theorem step (h : w.Aloof dead stack) (lodged : w.Lodged) (step : w.Step s move w') : w'.Aloof dead stack := by
  have untracked := h.untracked_after lodged.tracked step.lodges
  refine ⟨Nat.lt_of_lt_of_le h.known step.lodges.size, untracked, fun s' task member event => ?_, ?_⟩
  · rcases step.renewed member with before | ⟨rfl, ⟨before, was, thread, context⟩ | ⟨_, found⟩ | shown⟩
    · exact h.eventless s' task before event
    · rw [context]
      exact h.eventless s' _ before was
    · intro same
      exact untracked task.thread (same ▸ found)
    · cases event.symm.trans shown
  · cases dispatches : move.isDispatch with
    | false => rw [step.stack dispatches, h.stack]
    | true =>
        obtain ⟨task, rest, piece, is, rfl⟩ := step.piece dispatches
        have event := Stage.not_isInspecting_of_holds is.holds
        have ne := h.eventless s task (mem_innermost is.tasks) event
        change (piece.2.context dead).stack = stack
        rw [is.others h.known ne.symm, h.stack]

theorem become (h : w.Aloof dead stack) (tracked : w.debugger.WellTracked) {d : Debugger}
    (lodges : w.debugger.Lodges d) (same : (d.context dead).stack = (w.debugger.context dead).stack) :
    (w.become d).Aloof dead stack :=
  ⟨Nat.lt_of_lt_of_le h.known lodges.size, h.untracked_after tracked lodges, h.eventless, same.trans h.stack⟩

theorem acts (h : w.Aloof dead stack) (lodged : w.Lodged) (acts : w.Acts s act w') : w'.Aloof dead stack := by
  have lodges := acts.lodges
  cases acts with
  | move step => exact h.step lodged step
  | load stop free =>
      refine h.become lodged.tracked lodges ?_
      refine Debugger.preserves_prepareLoad (Debugger.neutral_stack _).tolerant w.debugger s stop ?_ rfl
      -- The context of a thread is none that belongs to no thread.
      intro found
      have current := (Debugger.currentContext_eq_ok (Prod.ext found rfl)).2
      exact h.untracked_after lodged.tracked (Acts.meet free).lodges _ current
  | meet free =>
      refine h.become lodged.tracked lodges ?_
      exact Debugger.preserves_currentContext (Debugger.neutral_stack _).tolerant w.debugger s rfl
  | skip id on free =>
      refine h.become lodged.tracked lodges ?_
      refine w.debugger.preserves_updateContext id (P := fun context => context.stack = _) ?_ rfl
      exact fun same => same
  | keep on free => exact h.become lodged.tracked lodges rfl

end Aloof

theorem Course.aloof {allowed : World → Nat → Act → Prop} (course : Course allowed w w')
    (h : w.Aloof dead stack) (lodged : w.Lodged) : w'.Aloof dead stack := by
  induction course with
  | refl => exact h
  | step course next ok ih => exact ih.acts (course.lodged lodged) next

theorem aloof_of_attached (lodged : w.Lodged) {task : Task} {rest : List Task} {event : Event}
    {exception : Value} {kept : PostMortem} (tasks : w.tasks s = task :: rest) (stage : task.stage = .admitted event)
    (attached : w.debugger.Attached task.context stack exception kept
      (w.debugger.dispatch s task.context event).2) :
    (w.proceed s task rest (w.debugger.dispatch s task.context event)).Aloof kept.context
      (stack.freeze (w.debugger.dispatch s task.context event).2.host.scopes) := by
  have untracked (thread : Thread) :
      (w.debugger.dispatch s task.context event).2.contextOf? thread ≠ some kept.context := by
    intro found
    rcases w.debugger.dispatch_cases s task.context event with touched | ⟨-, ended, -⟩
    · have before : w.debugger.contextOf? thread = some kept.context := by
        rw [Debugger.contextOf?, ← touched.session]
        exact found
      exact absurd attached.new (Nat.ne_of_lt (lodged.tracked.known before).1)
    · rw [Debugger.contextOf?, ended] at found
      cases found
  have older {s' : Nat} {other : Task} (member : other ∈ w.tasks s')
      (event' : other.stage.isInspecting = false) : other.context ≠ kept.context := by
    rw [attached.new]
    exact Nat.ne_of_lt (lodged.home s' other member event').1
  refine ⟨attached.known, untracked, fun s' other member event' => ?_, attached.copied⟩
  rcases (Step.dispatch tasks stage).renewed member with
    before | ⟨rfl, ⟨before, was, _, context⟩ | ⟨_, found⟩ | shown⟩
  · exact older before event'
  · rw [context]
    exact older before was
  · intro same
    exact untracked other.thread (same ▸ found)
  · cases event'.symm.trans shown

/-! ## Readings -/

/-- An exception that is raised while post-mortems are turned on keeps a context that is read, in all runs that
follow, as the raising context right after the raise moved its innermost frame. -/
theorem reading_of_raise {w₀ : World}
    (idle : ∀ s, w₀.tasks s = []) (own : w₀.debugger.host.OwnThreads) (tracked : w₀.debugger.WellTracked)
    (course : Course Anything w₀ w) {task : Task} {rest : List Task} {event : Event} {position : Position}
    {exception : Value} (tasks : w.tasks s = task :: rest) (stage : task.stage = .admitted event)
    (captures : w.debugger.Captures task.context event position exception) :
    let raised := w.proceed s task rest (w.debugger.dispatch s task.context event)
    let live := raised.debugger.context task.context
    live.stack = ((w.debugger.context task.context).moveTop event position false).stack ∧
      ∃ kept, raised.debugger.postMortem? exception = some kept ∧ ∀ later, Course Anything raised later →
        later.debugger.ReadsAs kept.context live raised.debugger.host.scopes := by
  intro raised live
  have lodged : w.Lodged := course.lodged (.of_idle idle own tracked)
  have known := (lodged.home s task (mem_innermost tasks) (by rw [stage]; rfl)).1
  obtain ⟨kept, attached⟩ := Debugger.attached_dispatch known s captures
  refine ⟨attached.live, kept, attached.keeps, fun later course' => Debugger.readsAs_of_copied ?_⟩
  have aloof := aloof_of_attached lodged tasks stage attached
  rw [(course'.aloof aloof (lodged.step (.dispatch tasks stage))).stack, ← attached.live]
  rfl

/-! ## An assignment and an exit after a raise -/

def firstScope : Scope := ⟨0, none⟩

def assigning (w : World) (n : Int) : Nat × Act :=
  (0, .move (.execute { w.debugger.host with scopes := w.debugger.host.scopes.assign firstScope "x" (.int n) }))

def inScope (kind : EventKind) (line : Nat) : Event :=
  { Event.ofKind kind with position := some ⟨"a.rb", line⟩, receiver := some .nil, scope := some firstScope }

def failure (number : Nat) : Value := .exception "RuntimeError" number

def executed : World := unstarted.afterwards ((0, .move (.request (.debugger .start))) :: (0, .keep true) ::
  (Move.ofEvent (inScope (.line false) 1)).map fun move => (0, .move move))

def raisingSoon : World :=
  executed.afterwards [assigning executed 1, (0, .move (.arrive (inScope (.raise (failure 1)) 2))), (0, .move .ask)]

def raisingTask : Task :=
  let event := inScope (.raise (failure 1)) 2
  ⟨⟨1, "main"⟩, 0, .admitted event, false, 1, some event⟩

def raisedNow : World := raisingSoon.proceed 0 raisingTask []
  (raisingSoon.debugger.dispatch 0 0 (inScope (.raise (failure 1)) 2))

def reassigned : World := raisedNow.afterwards [(0, .move .release), assigning raisedNow 2]

def exited : World :=
  reassigned.afterwards ((Move.ofEvent (inScope (.raise (.exception "SystemExit" 2)) 3)).map fun move =>
    (0, .move move))

theorem course_raisingSoon : Course Anything unstarted raisingSoon :=
  (course_afterwards unstarted _).trans (course_afterwards executed _)

theorem captures_raisingSoon : raisingSoon.debugger.Captures 0 (inScope (.raise (failure 1)) 2) ⟨"a.rb", 2⟩
    (failure 1) :=
  ⟨rfl, ⟨_, _, rfl⟩, rfl, rfl, rfl, rfl⟩

theorem reading_of_reassigned : Course Anything unstarted raisingSoon ∧
    raisingSoon.debugger.Captures 0 (inScope (.raise (failure 1)) 2) ⟨"a.rb", 2⟩ (failure 1) ∧
    Course Anything raisedNow reassigned ∧ ∃ kept, raisedNow.debugger.postMortem? (failure 1) = some kept ∧
      (reassigned.debugger.frameView kept.context 0).map (·.reading) =
        .ok ⟨⟨"a.rb", 2⟩, none, some .nil, [("x", .int 1)]⟩ := by
  have course : Course Anything raisedNow reassigned := course_afterwards raisedNow _
  obtain ⟨-, kept, keeps, reads⟩ := reading_of_raise (fun _ => rfl) Host.ownThreads_initial
    (.of_ended rfl) course_raisingSoon (show raisingSoon.tasks 0 = [raisingTask] from rfl) rfl captures_raisingSoon
  refine ⟨course_raisingSoon, captures_raisingSoon, course, kept, keeps, ?_⟩
  rw [(reads reassigned course).frames rfl]
  rfl

/-- The program exits after the raise: the copy can no longer be read. -/
theorem unread_of_exit : Course Anything unstarted raisingSoon ∧
    raisingSoon.debugger.Captures 0 (inScope (.raise (failure 1)) 2) ⟨"a.rb", 2⟩ (failure 1) ∧
    Course Anything raisedNow exited ∧ (∃ kept, raisedNow.debugger.postMortem? (failure 1) = some kept ∧
      (raisedNow.debugger.frameView kept.context 0).map (·.reading) =
        .ok ⟨⟨"a.rb", 2⟩, none, some .nil, [("x", .int 1)]⟩ ∧
      exited.debugger.frameView kept.context 0 = .error .notStarted) :=
  have course : Course Anything raisedNow exited :=
    (course_afterwards raisedNow _).trans (course_afterwards reassigned _)
  ⟨course_raisingSoon, captures_raisingSoon, course, _, rfl, rfl, rfl⟩

end World

end EventDebugger
