import EventDebugger.Debugger.Handling

/-!
# Handling, step by step

What the handling of an event computes from a debugger and a state of the front-end, as equations
between pairs of them.
-/

namespace EventDebugger

variable {σ ε : Type} (front : FrontEnd σ ε) (system : Nat) (d : Debugger) (state : σ)

theorem run_bind_eq {α β : Type} (x : Run σ α) (f : α → Run σ β) (s : Debugger × σ) :
    (x >>= f) s = f (x s).1 (x s).2 := rfl

theorem drive_done (id : ContextId) (n : Nat) :
    Outcome.drive front system id n .done (d, state) = (.ok (), d, state) := by
  cases n <;> rfl

theorem drive_call (id : ContextId) (n : Nat) (callback : Callback) (next : Continuation) :
    Outcome.drive front system id (n + 1) (.call callback next) (d, state) =
      match front system callback (d, state) with
      | (.error error, d, state) => (.error (.frontEnd error), d, state)
      | (.ok (), d, state) =>
          let piece := next.run d system id
          piece.1.drive front system id n (piece.2, state) := by
  rw [Outcome.drive, run_bind_eq]
  rcases front system callback (d, state) with ⟨_ | _, d, state⟩ <;> rfl

theorem handleWithTicket_eq (id : ContextId) (event : Event) :
    handleWithTicket front system id event (d, state) =
      let piece := d.dispatch system id event
      let handled := piece.1.complete front system id (piece.2, state)
      (handled.1, handled.2.1.release, handled.2.2) := rfl

theorem contendAndHandle_eq (thread : Thread) (id : ContextId) (event : Event) (granted : Bool) :
    contendAndHandle front system thread id event granted (d, state) =
      match d.contend thread id granted with
      | (.ticket, d) =>
          let handled := handleWithTicket front system id event (d, state)
          (.finished handled.1, handled.2)
      | (.dropped, d) => (.finished (.ok ()), d, state)
      | (.wait reason, d) => (.waiting ⟨system, thread, id, event, reason, d.wakeups⟩, d, state) := by
  rw [contendAndHandle, run_bind_eq, Run.onDebugger]
  rcases d.contend thread id granted with ⟨turn, d⟩
  cases turn <;> rfl

theorem handleEvent_eq (event : Event) :
    handleEvent front system event (d, state) =
      match d.arrive system event with
      | (none, d) => (.finished (.ok ()), d, state)
      | (some (thread, id), d) => contendAndHandle front system thread id event false (d, state) := by
  rw [handleEvent, run_bind_eq, Run.onDebugger]
  rcases d.arrive system event with ⟨_ | ⟨thread, id⟩, d⟩ <;> rfl

theorem continueEvent_eq (pending : PendingEvent) :
    continueEvent front pending (d, state) =
      if d.isAwake pending then
        contendAndHandle front pending.system pending.thread pending.context pending.event
          (pending.waiting == .queued) (d, state)
      else (.waiting pending, d, state) := by
  rw [continueEvent]
  change (if d.isAwake pending then _ else _ : Run σ (Progress ε)) (d, state) = _
  split <;> rfl

end EventDebugger
