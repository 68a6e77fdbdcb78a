import EventDebugger.Proofs.Ticket.EarlyCommands
import EventDebugger.Proofs.Ticket.Snapshots

/-!
# Failing commands

The commands of a debugger and of its contexts, carried out access by access: a command looks at the debugger, checks
something, stores one field. What was stored before a failure stays, so nothing but the order of the accesses
protects the debugger. All checks come before the first store, and a command that fails has therefore changed nothing.

* `Gradual.Atomic`: what is refused before it changes anything; checks in front of it keep that.
* `Debugger.Command.gradual_eq_run`: carried out access by access, a command does what it does at once.
* `Debugger.Command.unchanged_of_error`: a command that fails leaves everything as it was.
-/

namespace EventDebugger

variable {σ α β : Type}

/-- A part of a command, access by access. What was stored before a failure stays. -/
abbrev Gradual (σ α : Type) := ExceptT Error (Run σ) α

namespace Gradual

def look : Gradual σ Debugger := ExceptT.lift Run.debugger

def check (result : Except Error α) : Gradual σ α := ExceptT.mk (pure result)

def store (f : Debugger → Debugger) : Gradual σ Unit := ExceptT.lift (Run.onDebugger fun d => ((), f d))

def storeAt (id : ContextId) (f : Context → Context) : Gradual σ Unit := store (·.updateContext id f)

def active : Gradual σ Session := do check (← look).activeSession

def refuseIf (refused : Bool) (error : Error) : Gradual σ Unit := if refused then throw error else pure ()

/-! ## What is refused before it changes anything -/

def Looks (x : Gradual σ α) : Prop := ∀ p, (x p).2 = p

def Succeeds (x : Gradual σ α) : Prop := ∀ p error, (x p).1 ≠ .error error

def Atomic (x : Gradual σ α) : Prop := ∀ {p p' error}, x p = (.error error, p') → p' = p

theorem bind_eq (x : Gradual σ α) (f : α → Gradual σ β) (p : Debugger × σ) :
    (x >>= f) p = match x p with
      | (.ok a, p') => f a p'
      | (.error error, p') => (.error error, p') := by
  change (ExceptT.bindCont f (x p).1) (x p).2 = _
  rcases x p with ⟨_ | _, p'⟩ <;> rfl

theorem look_bind (f : Debugger → Gradual σ β) (d : Debugger) (s : σ) : (look >>= f) (d, s) = f d (d, s) := rfl

theorem check_bind (result : Except Error α) (f : α → Gradual σ β) (p : Debugger × σ) :
    (check result >>= f) p = match result with
      | .ok a => f a p
      | .error error => (.error error, p) := by
  rw [bind_eq]
  cases result <;> rfl

theorem active_bind (f : Session → Gradual σ β) (d : Debugger) (s : σ) :
    (active >>= f) (d, s) = match d.activeSession with
      | .ok session => f session (d, s)
      | .error error => (.error error, d, s) := by
  change (check d.activeSession >>= f) (d, s) = _
  rw [check_bind]
  cases d.activeSession <;> rfl

theorem refuseIf_bind (refused : Bool) (error : Error) (f : Unit → Gradual σ β) (p : Debugger × σ) :
    (refuseIf refused error >>= f) p = if refused then (.error error, p) else f () p := by
  cases refused <;> rfl

theorem store_bind (g : Debugger → Debugger) (f : Unit → Gradual σ β) (d : Debugger) (s : σ) :
    (store g >>= f) (d, s) = f () (g d, s) := rfl

theorem storeAt_bind (id : ContextId) (g : Context → Context) (f : Unit → Gradual σ β) (d : Debugger) (s : σ) :
    (storeAt id g >>= f) (d, s) = f () (d.updateContext id g, s) := rfl

theorem storeAt_eq (id : ContextId) (g : Context → Context) (d : Debugger) (s : σ) :
    storeAt id g (d, s) = (.ok (), d.updateContext id g, s) := rfl

theorem looks_pure (a : α) : Looks (pure a : Gradual σ α) := fun _ => rfl

theorem looks_throw (error : Error) : Looks (throw error : Gradual σ α) := fun _ => rfl

theorem looks_look : Looks (look : Gradual σ Debugger) := fun _ => rfl

theorem looks_check (result : Except Error α) : Looks (check result : Gradual σ α) := fun _ => rfl

theorem looks_bind {x : Gradual σ α} {f : α → Gradual σ β} (hx : Looks x) (hf : ∀ a, Looks (f a)) :
    Looks (x >>= f) := by
  intro p
  rw [bind_eq]
  have same := hx p
  split
  · next a p' after =>
      rw [after] at same
      rw [hf a p', ← same]
  · next error p' after =>
      rw [after] at same
      exact same

theorem looks_active : Looks (active : Gradual σ Session) :=
  looks_bind looks_look fun _ => looks_check _

theorem looks_refuseIf (refused : Bool) (error : Error) : Looks (refuseIf refused error : Gradual σ Unit) := by
  cases refused with
  | true => exact looks_throw error
  | false => exact looks_pure ()

theorem succeeds_pure (a : α) : Succeeds (pure a : Gradual σ α) := fun _ _ refused => nomatch refused

theorem succeeds_look : Succeeds (look : Gradual σ Debugger) := fun _ _ refused => nomatch refused

theorem succeeds_lift (body : Run σ α) : Succeeds (ExceptT.lift body : Gradual σ α) :=
  fun _ _ refused => nomatch refused

theorem succeeds_store (f : Debugger → Debugger) : Succeeds (store f : Gradual σ Unit) :=
  fun _ _ refused => nomatch refused

theorem succeeds_storeAt (id : ContextId) (f : Context → Context) : Succeeds (storeAt id f : Gradual σ Unit) :=
  succeeds_store _

theorem succeeds_bind {x : Gradual σ α} {f : α → Gradual σ β} (hx : Succeeds x) (hf : ∀ a, Succeeds (f a)) :
    Succeeds (x >>= f) := by
  intro p error
  rw [bind_eq]
  split
  · next a p' after => exact hf a p' error
  · next refused p' after => exact absurd (by rw [after]) (hx p refused)

theorem Succeeds.atomic {x : Gradual σ α} (succeeds : Succeeds x) : Atomic x := by
  intro p p' error failed
  exact absurd (by rw [failed]) (succeeds p error)

theorem atomic_bind {x : Gradual σ α} {f : α → Gradual σ β} (looks : Looks x) (hf : ∀ a, Atomic (f a)) :
    Atomic (x >>= f) := by
  intro p p' error failed
  rw [bind_eq] at failed
  have same := looks p
  split at failed
  · next a p'' after =>
      rw [after] at same
      rw [hf a failed, ← same]
  · next refused p'' after =>
      cases failed
      rw [after] at same
      exact same

end Gradual

namespace Debugger

open Gradual

/-- The commands that can fail: of a context, of the debugger, and a section with post-mortems. Each with what it
yields. -/
inductive Command (σ : Type) : Type → Type 1 where
  | step (id : ContextId) (n : Int) (force : Bool) : Command σ Unit
  | stepOver (id : ContextId) (n : Int) (frame : Option Int) (force : Bool) : Command σ Unit
  | stopFrame (id : ContextId) (index : Int) : Command σ Unit
  | setTracing (id : ContextId) (on : Bool) : Command σ Unit
  | setTemporary (id : ContextId) (source : String) (target : BreakpointTarget) (guard : Option String) :
      Command σ Breakpoint
  | clearTemporary (id : ContextId) : Command σ (Option Breakpoint)
  | stop : Command σ Bool
  | suspend (id : ContextId) : Command σ Unit
  | resume (id : ContextId) : Command σ Unit
  | threadContext (thread : Thread) : Command σ ContextId
  | addBreakpoint (source : String) (target : BreakpointTarget) (guard : Option String) : Command σ Breakpoint
  | removeBreakpoint (id : Nat) : Command σ (Option Breakpoint)
  | setCatchpoint (className : Option String) : Command σ Unit
  | setPostMortem (on : Bool) : Command σ Unit
  | withPostMortem {α : Type} (body : Run σ α) : Command σ α

namespace Command

def run : Command σ α → Run σ (Except Error α)
  | .step id n force => Run.perform (·.command id (·.step n force))
  | .stepOver id n frame force => Run.perform (·.command id (·.stepOver n frame force))
  | .stopFrame id index => Run.perform (·.command id (·.stopFrame index))
  | .setTracing id on => Run.perform (·.command id fun context => .ok { context with tracing := on })
  | .setTemporary id source target guard => Run.attempt (·.setTemporary id source target guard)
  | .clearTemporary id => Run.attempt (·.clearTemporary id)
  | .stop => Run.attempt Debugger.stop
  | .suspend id => Run.perform (·.suspend id)
  | .resume id => Run.perform (·.resume id)
  | .threadContext thread => Run.attempt (·.threadContext thread)
  | .addBreakpoint source target guard => Run.attempt (·.addBreakpoint source target guard)
  | .removeBreakpoint id => Run.attempt (·.removeBreakpoint id)
  | .setCatchpoint className => Run.perform (·.setCatchpoint className)
  | .setPostMortem on => Run.perform (·.setPostMortem on)
  | .withPostMortem body => runWithPostMortem body

def gradual : Command σ α → Gradual σ α
  | .step id n force => do
      let _ ← active
      let n ← check (Context.checkSteps n)
      storeAt id ({ · with stopNext := .armed n })
      storeAt id ({ · with forced := force })
  | .stepOver id n frame force => do
      let _ ← active
      let n ← check (Context.checkSteps n)
      let size := ((← look).context id).depth
      refuseIf (size == 0) .noFrames
      let i ← check (match frame with
        | some index => Context.checkFrame index size
        | none => .ok 0)
      storeAt id ({ · with stopLine := .armed n })
      storeAt id ({ · with stepped := false })
      storeAt id ({ · with targetDepth := some (size - i) })
      storeAt id ({ · with forced := force })
  | .stopFrame id index => do
      let _ ← active
      let size := ((← look).context id).depth
      let i ← check (Context.checkFrame index size)
      storeAt id ({ · with finishDepth := some (size - i) })
  | .setTracing id on => do
      let _ ← active
      storeAt id ({ · with tracing := on })
  | .setTemporary id source target guard => do
      let _ ← active
      let bp : Breakpoint := ⟨0, source, target, guard⟩
      storeAt id fun context =>
        { context with temporary := some bp, temporaryCount := context.temporaryCount + 1 }
      return bp
  | .clearTemporary id => do
      let _ ← active
      let before := ((← look).context id).temporary
      storeAt id ({ · with temporary := none })
      return before
  | .stop => do
      let _ ← active
      store fun d => { d with startCount := d.startCount - 1 }
      if (← look).startCount > 0 then return false
      store fun d => { d with session := none }
      store wakeUp
      return true
  | .suspend id => do
      let _ ← active
      refuseIf ((← look).context id).suspended .alreadySuspended
      let d ← look
      match d.host.status (d.context id).thread with
      | .running => do
          storeAt id ({ · with wasRunning := true })
          storeAt id ({ · with suspended := true })
      | .sleeping => do
          storeAt id ({ · with wasRunning := false })
          storeAt id ({ · with suspended := true })
      | .other => return ()
  | .resume id => do
      let _ ← active
      refuseIf (!((← look).context id).suspended) .notSuspended
      storeAt id ({ · with suspended := false })
      if ((← look).context id).wasRunning then store wakeUp
  | .threadContext thread => do
      let session ← active
      refuseIf (!(← look).host.isAlive thread) (.untrackedThread thread.text)
      match session.table.find? thread with
      | some id => do
          store fun d => { d with session := some { session with table := session.table.remember thread id } }
          return id
      | none => do
          store fun d => { d with contextCount := d.contextCount + 1 }
          let id := (← look).contexts.size
          store fun d => (d.addContext (.initial thread d.contextCount (d.host.isDebuggerThread thread))).2
          store fun d => { d with session := some { session with table := session.table.insert thread id } }
          return id
  | .addBreakpoint source target guard => do
      let session ← active
      store fun d => { d with breakpointCount := d.breakpointCount + 1 }
      let bp : Breakpoint := ⟨(← look).breakpointCount, source, target, guard⟩
      store fun d => { d with session := some { session with registry := session.registry.add bp } }
      return bp
  | .removeBreakpoint id => do
      let session ← active
      store fun d => { d with session := some { session with registry := session.registry.remove id } }
      return session.registry.find? id
  | .setCatchpoint className => do
      let _ ← active
      store fun d => { d with catchpoint := className }
  | .setPostMortem on => do
      let _ ← active
      store fun d => { d with settings := { d.settings with postMortem := on } }
  | .withPostMortem body => do
      refuseIf (← look).settings.postMortem .postMortemActive
      let _ ← active
      store fun d => { d with settings := { d.settings with postMortem := true } }
      let a ← ExceptT.lift body
      store fun d => { d with settings := { d.settings with postMortem := false } }
      return a

/-! ## All checks come first -/

theorem succeeds_stores {f : Debugger → Debugger} {x : Gradual σ α} (hx : Succeeds x) :
    Succeeds (store f >>= fun _ => x) := succeeds_bind (succeeds_store f) fun _ => hx

theorem succeeds_storesAt {id : ContextId} {f : Context → Context} {x : Gradual σ α} (hx : Succeeds x) :
    Succeeds (storeAt id f >>= fun _ => x) := succeeds_bind (succeeds_storeAt id f) fun _ => hx

theorem atomic_gradual (command : Command σ α) : Atomic command.gradual := by
  cases command with
  | step id n force =>
      refine atomic_bind looks_active fun _ => atomic_bind (looks_check _) fun _ => Succeeds.atomic ?_
      exact succeeds_storesAt (succeeds_storeAt id _)
  | stepOver id n frame force =>
      refine atomic_bind looks_active fun _ => atomic_bind (looks_check _) fun _ =>
        atomic_bind looks_look fun _ => atomic_bind (looks_refuseIf _ _) fun _ =>
          atomic_bind (looks_check _) fun _ => Succeeds.atomic ?_
      exact succeeds_storesAt (succeeds_storesAt (succeeds_storesAt (succeeds_storeAt id _)))
  | stopFrame id index =>
      refine atomic_bind looks_active fun _ => atomic_bind looks_look fun _ =>
        atomic_bind (looks_check _) fun _ => ?_
      exact (succeeds_storeAt id _).atomic
  | setTracing id on => exact atomic_bind looks_active fun _ => (succeeds_storeAt id _).atomic
  | setTemporary id source target guard =>
      exact atomic_bind looks_active fun _ => (succeeds_storesAt (succeeds_pure _)).atomic
  | clearTemporary id =>
      refine atomic_bind looks_active fun _ => atomic_bind looks_look fun _ => ?_
      exact (succeeds_storesAt (succeeds_pure _)).atomic
  | stop =>
      refine atomic_bind looks_active fun _ => Succeeds.atomic ?_
      refine succeeds_stores (succeeds_bind succeeds_look fun d => ?_)
      split
      · exact succeeds_pure _
      · exact succeeds_stores (succeeds_stores (succeeds_pure _))
  | suspend id =>
      refine atomic_bind looks_active fun _ => atomic_bind looks_look fun _ =>
        atomic_bind (looks_refuseIf _ _) fun _ => atomic_bind looks_look fun d => Succeeds.atomic ?_
      split
      · exact succeeds_storesAt (succeeds_storeAt id _)
      · exact succeeds_storesAt (succeeds_storeAt id _)
      · exact succeeds_pure _
  | resume id =>
      refine atomic_bind looks_active fun _ => atomic_bind looks_look fun _ =>
        atomic_bind (looks_refuseIf _ _) fun _ => Succeeds.atomic ?_
      refine succeeds_storesAt (succeeds_bind succeeds_look fun d => ?_)
      split
      · exact succeeds_store _
      · exact succeeds_pure _
  | threadContext thread =>
      refine atomic_bind looks_active fun _ => atomic_bind looks_look fun _ =>
        atomic_bind (looks_refuseIf _ _) fun _ => Succeeds.atomic ?_
      split
      · exact succeeds_stores (succeeds_pure _)
      · exact succeeds_stores (succeeds_bind succeeds_look fun _ =>
          succeeds_stores (succeeds_stores (succeeds_pure _)))
  | addBreakpoint source target guard =>
      refine atomic_bind looks_active fun _ => Succeeds.atomic ?_
      exact succeeds_stores (succeeds_bind succeeds_look fun _ => succeeds_stores (succeeds_pure _))
  | removeBreakpoint id => exact atomic_bind looks_active fun _ => (succeeds_stores (succeeds_pure _)).atomic
  | setCatchpoint className => exact atomic_bind looks_active fun _ => (succeeds_store _).atomic
  | setPostMortem on => exact atomic_bind looks_active fun _ => (succeeds_store _).atomic
  | withPostMortem body =>
      refine atomic_bind looks_look fun _ => atomic_bind (looks_refuseIf _ _) fun _ =>
        atomic_bind looks_active fun _ => Succeeds.atomic ?_
      exact succeeds_stores (succeeds_bind (succeeds_lift body) fun _ => succeeds_stores (succeeds_pure _))

end Command

end Debugger

/-! ## At once -/

def settle (p : Debugger × σ) : Except Error (α × Debugger) → Except Error α × Debugger × σ
  | .ok (a, d) => (.ok a, d, p.2)
  | .error error => (.error error, p)

theorem Run.attempt_eq (f : Debugger → Except Error (α × Debugger)) (d : Debugger) (s : σ) :
    Run.attempt f (d, s) = settle (d, s) (f d) := by
  rw [Run.attempt, Run.onDebugger]
  rcases f d with _ | ⟨a, d'⟩ <;> rfl

theorem Run.perform_eq_settle (f : Debugger → Except Error Debugger) (d : Debugger) (s : σ) :
    Run.perform f (d, s) = settle (d, s) (f d >>= fun d' => .ok ((), d')) := by
  rw [Run.perform, Run.attempt_eq]
  cases f d <;> rfl

namespace Gradual

variable {p : Debugger × σ} {d : Debugger} {s : σ}

theorem check_settle {result : Except Error α} {f : α → Gradual σ β} {g : α → Except Error (β × Debugger)}
    (same : ∀ a, f a p = settle p (g a)) : (check result >>= f) p = settle p (result >>= g) := by
  rw [check_bind]
  cases result with
  | ok a => exact same a
  | error error => rfl

theorem active_settle {f : Session → Gradual σ β} {g : Session → Except Error (β × Debugger)}
    (same : ∀ session, f session (d, s) = settle (d, s) (g session)) :
    (active >>= f) (d, s) = settle (d, s) (d.activeSession >>= g) :=
  check_settle same

end Gradual

namespace Debugger

variable {d : Debugger} {id : ContextId}

theorem inspect_eq (d : Debugger) (id : ContextId) (f : Context → Except Error α) :
    d.inspect id f = d.activeSession >>= fun _ => f (d.context id) := by
  rw [inspect, isStarted, activeSession]
  rcases d.session with _ | session <;> rfl

theorem command_eq (d : Debugger) (id : ContextId) (f : Context → Except Error Context) :
    d.command id f = do
      let _ ← d.activeSession
      let context ← f (d.context id)
      return d.updateContext id fun _ => context := by
  rw [command, inspect_eq, bind_assoc]

theorem updateContext_eq_const (d : Debugger) (id : ContextId) (f : Context → Context) :
    d.updateContext id f = d.updateContext id fun _ => f (d.context id) := by
  have same : d.contexts.modify id f = d.contexts.modify id fun _ => f (d.context id) := by
    apply Array.ext
    · simp only [Array.size_modify]
    · intro i bound _
      rw [Array.size_modify] at bound
      simp only [Array.getElem_modify]
      split
      · next here =>
          subst here
          rw [context, Array.getD_eq_getD_getElem?, Array.getElem?_eq_getElem bound, Option.getD_some]
      · rfl
  rw [updateContext, updateContext, same]

theorem updateContext_self (d : Debugger) (id : ContextId) : d.updateContext id (fun context => context) = d := by
  have same : d.contexts.modify id (fun context => context) = d.contexts := by
    apply Array.ext
    · exact Array.size_modify
    · intro i _ _
      rw [Array.getElem_modify]
      split <;> rfl
  rw [updateContext, same]

namespace Command

open Gradual

theorem storeAt_stepOver (d : Debugger) (s : σ) (id : ContextId) (n : Nat) (force : Bool) (i : Nat) :
    (do
      storeAt id ({ · with stopLine := .armed n })
      storeAt id ({ · with stepped := false })
      storeAt id ({ · with targetDepth := some ((d.context id).depth - i) })
      storeAt id ({ · with forced := force }) : Gradual σ Unit) (d, s) =
      (.ok (), d.updateContext id fun _ => { d.context id with
        stopLine := .armed n, stepped := false
        targetDepth := some ((d.context id).depth - i), forced := force }, s) := by
  simp only [storeAt_bind, storeAt_eq, updateContext_updateContext]
  rw [updateContext_eq_const]

theorem gradual_command {f : Context → Except Error Context} {x : Session → Gradual σ Unit} {s : σ}
    (same : ∀ session, x session (d, s) =
      settle (d, s) (f (d.context id) >>= fun context => .ok ((), d.updateContext id fun _ => context))) :
    (active >>= x) (d, s) = Run.perform (fun d => d.command id f) (d, s) := by
  rw [Run.perform_eq_settle, command_eq]
  simp only [bind_assoc]
  exact active_settle same

theorem gradual_stepOver (id : ContextId) (n : Int) (frame : Option Int) (force : Bool) (d : Debugger) (s : σ) :
    (Command.stepOver id n frame force).gradual (d, s) = (Command.stepOver id n frame force).run (d, s) := by
  refine gradual_command fun _ => ?_
  simp only [Context.stepOver, bind_assoc]
  refine check_settle fun n => ?_
  have empty : (d.context id).stack.isEmpty = ((d.context id).depth == 0) := by
    rw [Context.depth]
    cases (d.context id).stack <;> rfl
  rw [look_bind]
  simp only [empty, refuseIf_bind]
  cases (d.context id).depth == 0 with
  | true => rfl
  | false =>
      cases frame with
      | none => exact storeAt_stepOver d s id n force 0
      | some index =>
          simp only [Bool.false_eq_true, if_false, bind_assoc]
          exact check_settle fun i => storeAt_stepOver d s id n force i

theorem gradual_stop (d : Debugger) (s : σ) : Command.stop.gradual (d, s) = Command.stop.run (d, s) := by
  rw [run, Run.attempt_eq, Debugger.stop]
  refine active_settle fun _ => ?_
  simp only [store_bind, look_bind]
  by_cases remains : d.startCount - 1 > 0
  · simp only [remains, if_true]
    rfl
  · simp only [remains, if_false, store_bind]
    rfl

theorem gradual_suspend (id : ContextId) (d : Debugger) (s : σ) :
    (Command.suspend id).gradual (d, s) = (Command.suspend id).run (d, s) := by
  rw [run, Run.perform_eq_settle, Debugger.suspend]
  simp only [bind_assoc]
  refine active_settle fun _ => ?_
  rw [look_bind, refuseIf_bind]
  cases (d.context id).suspended with
  | true => rfl
  | false =>
      rw [look_bind]
      change _ = settle (d, s) (.ok ((), d.suspendContext id))
      rw [suspendContext]
      cases d.host.status (d.context id).thread with
      | running | sleeping =>
          simp only [Bool.false_eq_true, if_false, storeAt_bind, storeAt_eq]
          rw [updateContext_updateContext]
          rfl
      | other => exact congrArg (fun d => (_, d, s)) (d.updateContext_self id).symm

theorem gradual_resume (id : ContextId) (d : Debugger) (s : σ) :
    (Command.resume id).gradual (d, s) = (Command.resume id).run (d, s) := by
  rw [run, Run.perform_eq_settle, Debugger.resume]
  simp only [bind_assoc]
  refine active_settle fun _ => ?_
  rw [look_bind, refuseIf_bind]
  cases (d.context id).suspended with
  | false => rfl
  | true =>
      have same : ((d.updateContext id Context.resume).context id).wasRunning = (d.context id).wasRunning :=
        d.preserves_updateContext id (P := fun context => context.wasRunning = _) (fun same => same) rfl
      change (if ((d.updateContext id Context.resume).context id).wasRunning then store wakeUp else pure ())
        (d.updateContext id Context.resume, s) = _
      rw [same]
      cases (d.context id).wasRunning <;> rfl

theorem gradual_threadContext (thread : Thread) (d : Debugger) (s : σ) :
    (Command.threadContext thread).gradual (d, s) = (Command.threadContext thread).run (d, s) := by
  rw [run, Run.attempt_eq, Debugger.threadContext]
  refine active_settle fun session => ?_
  rw [look_bind, refuseIf_bind]
  cases d.host.isAlive thread with
  | false => rfl
  | true =>
      change _ = settle (d, s) (.ok (d.track session thread))
      rw [track]
      cases session.table.find? thread <;> rfl

theorem gradual_withPostMortem (body : Run σ α) (d : Debugger) (s : σ) :
    (Command.withPostMortem body).gradual (d, s) = (Command.withPostMortem body).run (d, s) := by
  rw [run, runWithPostMortem, run_bind_eq, Run.perform_eq_settle, gradual, beginPostMortem, look_bind, refuseIf_bind]
  cases d.settings.postMortem with
  | true => rfl
  | false =>
      simp only [Bool.false_eq_true, if_false, active_bind, Debugger.setPostMortem]
      cases d.activeSession <;> rfl

theorem gradual_eq_run (command : Command σ α) (d : Debugger) (s : σ) :
    command.gradual (d, s) = command.run (d, s) := by
  cases command with
  | step id n force =>
      refine gradual_command fun _ => ?_
      simp only [Context.step, bind_assoc]
      refine check_settle fun n => ?_
      rw [storeAt_bind, storeAt_eq, updateContext_updateContext, updateContext_eq_const]
      rfl
  | stepOver id n frame force => exact gradual_stepOver id n frame force d s
  | stopFrame id index =>
      refine gradual_command fun _ => ?_
      simp only [Context.stopFrame, bind_assoc]
      rw [look_bind]
      refine check_settle fun i => ?_
      rw [storeAt_eq, updateContext_eq_const]
      rfl
  | setTracing id on =>
      refine gradual_command fun _ => ?_
      rw [storeAt_eq, updateContext_eq_const]
      rfl
  | setTemporary id source target guard =>
      rw [run, Run.attempt_eq, Debugger.setTemporary, command_eq]
      simp only [bind_assoc]
      refine active_settle fun _ => ?_
      rw [storeAt_bind, updateContext_eq_const]
      rfl
  | clearTemporary id =>
      rw [run, Run.attempt_eq, Debugger.clearTemporary, command_eq, inspect_eq, gradual, active_bind]
      cases d.activeSession with
      | error error => rfl
      | ok session =>
          rw [look_bind, storeAt_bind, updateContext_eq_const]
          rfl
  | stop => exact gradual_stop d s
  | suspend id => exact gradual_suspend id d s
  | resume id => exact gradual_resume id d s
  | threadContext thread => exact gradual_threadContext thread d s
  | addBreakpoint source target guard =>
      rw [run, Run.attempt_eq, Debugger.addBreakpoint]
      exact active_settle fun _ => rfl
  | removeBreakpoint id =>
      rw [run, Run.attempt_eq, Debugger.removeBreakpoint]
      exact active_settle fun _ => rfl
  | setCatchpoint className =>
      rw [run, Run.perform_eq_settle, Debugger.setCatchpoint]
      simp only [bind_assoc]
      exact active_settle fun _ => rfl
  | setPostMortem on =>
      rw [run, Run.perform_eq_settle, Debugger.setPostMortem]
      simp only [bind_assoc]
      exact active_settle fun _ => rfl
  | withPostMortem body => exact gradual_withPostMortem body d s

/-- A command that fails leaves everything as it was: all contexts, the breakpoints and the catch-point, the settings,
the table, the ticket and the counters, and what belongs to the front-end. -/
theorem unchanged_of_error (command : Command σ α) {d d' : Debugger} {s s' : σ} {error : Error}
    (failed : command.gradual (d, s) = (.error error, d', s')) :
    d' = d ∧ s' = s ∧ command.run (d, s) = (.error error, d, s) := by
  cases atomic_gradual command failed
  exact ⟨rfl, rfl, (gradual_eq_run command d s).symm.trans failed⟩

end Command

end Debugger

theorem World.unchanged_executed : Course Anything unstarted executed ∧
    (Debugger.Command.stepOver 0 3 (some 1) true).gradual (executed.debugger, ()) =
      (.error (.frameOutOfRange 1 1), executed.debugger, ()) ∧
    (Debugger.Command.stepOver 0 3 (some 1) true).run (executed.debugger, ()) =
      (.error (.frameOutOfRange 1 1), executed.debugger, ()) := by
  have course : Course Anything unstarted executed := course_afterwards unstarted _
  have failed : (Debugger.Command.stepOver 0 3 (some 1) true).gradual (executed.debugger, ()) =
      (.error (.frameOutOfRange 1 1), executed.debugger, ()) := rfl
  obtain ⟨-, -, atOnce⟩ := Debugger.Command.unchanged_of_error _ failed
  exact ⟨course, failed, atOnce⟩

end EventDebugger
