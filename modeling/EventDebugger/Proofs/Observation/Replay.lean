import EventDebugger.Proofs.Observation.Events
import EventDebugger.Proofs.Replay.Spawning
import EventDebugger.Recording

/-!
# Replays under observation

A computation is blind if it does the same in two runs that differ in observation only. The parts of the
replay of a program are, as long as no thread exits beside another one.

* `Run.Blind`: blind computations, with what has to hold before and what holds after them.
* `ReplayThread.blind_step`: the moves of a thread.
-/

namespace EventDebugger

/-! ## Blind computations -/

/-- A computation does the same in two runs that differ in observation only, if something holds before. Then
something holds after it. -/
def Run.Blind (traces : Bool) {α : Type} (before : Debugger → Prop) (x : Run Recorder α)
    (after : α → Debugger → Prop) : Prop :=
  ∀ ⦃d e : Debugger⦄ ⦃r q : Recorder⦄, d.Shares traces e → r.Shares traces q → before d →
    Indistinct traces (x (d, r)) (x (e, q)) ∧ after (x (d, r)).1 (x (d, r)).2.1

namespace Run.Blind

variable {traces : Bool} {α β : Type} {before before' : Debugger → Prop}
  {after : α → Debugger → Prop}

theorem pure {a : α} (holds : ∀ d, before d → after a d) : Blind traces before (Pure.pure a) after :=
  fun d _ _ _ h alike given => ⟨⟨rfl, h, alike⟩, holds d given⟩

theorem bind {x : Run Recorder α} {f : α → Run Recorder β} {m : α → Debugger → Prop}
    {after : β → Debugger → Prop} (first : Blind traces before x m) (later : ∀ a, Blind traces (m a) (f a) after) :
    Blind traces before (x >>= f) after := by
  intro d e r q h alike given
  obtain ⟨⟨same, h', alike'⟩, holds⟩ := first h alike given
  rw [run_bind_eq, run_bind_eq, same]
  exact later _ h' alike' holds

theorem of_imp {x : Run Recorder α} (blind : Blind traces before x after)
    (less : ∀ d, before' d → before d) : Blind traces before' x after :=
  fun d _ _ _ h alike given => blind h alike (less d given)

theorem onDebugger {f : Debugger → α × Debugger}
    (both : ∀ {d e}, d.Shares traces e → Debugger.Both traces (f d) (f e))
    (holds : ∀ d, before d → after (f d).1 (f d).2) : Blind traces before (Run.onDebugger f) after :=
  fun d _ _ _ h alike given => ⟨⟨(both h).same, (both h).shares, alike⟩, holds d given⟩

theorem onHost {f : Host → α × Host}
    (holds : ∀ d, before d → after (f d.host).1 { d with host := (f d.host).2 }) :
    Blind traces before (Run.onDebugger fun d => ((f d.host).1, { d with host := (f d.host).2 })) after := by
  refine .onDebugger (fun {d e} h => ?_) holds
  rw [h.host]
  exact ⟨rfl, h.change (fun d' => { d' with host := (f d.host).2 }) fun _ _ => rfl⟩

theorem reading {k : Debugger → Run Recorder α} (same : ∀ {d e}, d.Shares traces e → k e = k d)
    (each : ∀ d, Blind traces before (k d) after) : Blind traces before (Run.debugger >>= k) after := by
  intro d e r q h alike given
  change Indistinct traces (k d (d, r)) (k e (e, q)) ∧ after (k d (d, r)).1 (k d (d, r)).2.1
  rw [same h]
  exact each d h alike given

theorem attempt {f : Debugger → Except Error (α × Debugger)} {p : Debugger → Prop}
    (both : ∀ {d e}, d.Shares traces e → Results (Debugger.Both traces) (f d) (f e))
    (kept : ∀ {d a d'}, p d → f d = .ok (a, d') → p d') : Blind traces p (Run.attempt f) fun _ => p := by
  refine .onDebugger (fun {d e} h => ?_) fun d given => ?_
  · have results := both h
    generalize f d = x at results ⊢
    generalize f e = y at results ⊢
    cases results with
    | error error => exact ⟨rfl, h⟩
    | ok related => exact ⟨congrArg Except.ok related.same, related.shares⟩
  · cases found : f d with
    | error error => exact given
    | ok made => exact kept given found

theorem perform {f : Debugger → Except Error Debugger} {p : Debugger → Prop}
    (both : ∀ {d e}, d.Shares traces e → Results (Debugger.Shares traces) (f d) (f e))
    (kept : ∀ {d d'}, p d → f d = .ok d' → p d') : Blind traces p (Run.perform f) fun _ => p := by
  refine .attempt (fun {d e} h => ?_) fun {d a d'} given made => ?_
  · have results := both h
    generalize f d = x at results ⊢
    generalize f e = y at results ⊢
    cases results with
    | error error => exact .error error
    | ok shares => exact .ok ⟨rfl, shares⟩
  · cases found : f d with
    | error error => simp [found, Except.map] at made
    | ok made' =>
        simp only [found, Except.map, Except.ok.injEq, Prod.mk.injEq] at made
        exact made.2 ▸ kept given found

end Run.Blind

open Run (Blind)

/-! ## Events -/

def Progress.On (system : Nat) (progress : Progress Error) : Prop :=
  ∀ ⦃pending⦄, progress = .waiting pending → pending.system = system

theorem Progress.on_contendAndHandle (system : Nat) (thread : Thread) (id : ContextId) (event : Event)
    (granted : Bool) (s : Debugger × Recorder) :
    (contendAndHandle Recorder.frontEnd system thread id event granted s).1.On system := by
  intro pending waits
  rw [contendAndHandle_eq] at waits
  generalize s.1.contend thread id granted = x at waits
  obtain ⟨_ | _ | _, d⟩ := x
  · cases waits
  · cases waits
  · cases waits
    rfl

section

variable {traces : Bool} {system : Nat} {thread : Thread}

theorem blind_contendAndHandle (other : Thread) (id : ContextId) (event : Event) (granted : Bool) :
    Blind traces (·.Alone system thread) (contendAndHandle Recorder.frontEnd system other id event granted)
      fun progress d => d.Alone system thread ∧ progress.On system :=
  fun _ _ r _ h alike alone => ⟨h.contendAndHandle alike alone other id event granted,
    alone.contendAndHandle r other id event granted, Progress.on_contendAndHandle ..⟩

theorem blind_handleEvent (event : Event) :
    Blind traces (·.Alone system thread) (handleEvent Recorder.frontEnd system event)
      fun progress d => d.Alone system thread ∧ progress.On system := by
  unfold handleEvent
  refine .bind (m := fun _ d => d.Alone system thread) ?_ fun who => ?_
  · exact fun _ _ _ _ h alike alone => ⟨⟨(h.arrive alone event).same, (h.arrive alone event).shares, alike⟩,
      alone.arrive event⟩
  · obtain _ | ⟨other, id⟩ := who
    · exact .pure fun _ alone => ⟨alone, fun _ waits => by cases waits⟩
    · exact blind_contendAndHandle other id event false

theorem blind_continueEvent {pending : PendingEvent} (own : pending.system = system) :
    Blind traces (·.Alone system thread) (continueEvent Recorder.frontEnd pending)
      fun progress d => d.Alone system thread ∧ progress.On system := by
  refine .reading (fun {d e} h => ?_) fun d => ?_
  · rw [h.isAwake]
  · split
    · exact own ▸ blind_contendAndHandle pending.thread pending.context pending.event _
    · refine .pure fun _ alone => ⟨alone, fun other waits => ?_⟩
      cases waits
      exact own

end

/-! ## Moves -/

theorem Debugger.Shares.canMove {d e : Debugger} {traces : Bool} (h : d.Shares traces e)
    (t : ReplayThread Error) : t.canMove e = t.canMove d := by
  unfold ReplayThread.canMove
  split
  · rfl
  · exact h.isAwake _
  · rfl

namespace ReplayThread

variable {traces : Bool} {t : ReplayThread Error}

def Alone (t : ReplayThread Error) (d : Debugger) : Prop :=
  match t.phase with
  | .starting => d.host.isAlive t.thread ∧ d.Tended
  | .running _ _ => d.Alone t.system t.thread
  | .waiting _ _ pending => d.Alone t.system t.thread ∧ pending.system = t.system
  | .exited _ => True

theorem blind_exit (result : HookResult Error) :
    Blind traces (fun _ => True) (t.exit result) fun t' => t'.Alone :=
  .bind (m := fun _ _ => True) (.onHost (f := fun host => ((), host.exitThread t.thread)) fun _ _ => trivial)
    fun _ => .pure fun _ _ => trivial

theorem blind_afterEvent (activations : Activations) (actions : List Action) (progress : Progress Error) :
    Blind traces (fun d => d.Alone t.system t.thread ∧ progress.On t.system)
      (t.afterEvent activations actions progress) fun t' => t'.Alone := by
  unfold afterEvent
  split
  · exact .pure fun _ h => h.1
  · exact (t.blind_exit _).of_imp fun _ _ => trivial
  · exact .pure fun _ h => ⟨h.1, h.2 rfl⟩

theorem blind_emit {system : Nat} {thread : Thread} (event : Event) :
    Blind traces (·.Alone system thread) (emit Recorder.frontEnd system event)
      fun progress d => d.Alone system thread ∧ progress.On system := by
  unfold emit
  split
  · next scope _ =>
      refine .bind (m := fun _ d => d.Alone system thread) ?_ fun _ => blind_handleEvent event
      refine .onHost (f := fun host => ((), host.enterScope system scope)) fun d alone => ?_
      exact alone.of_same (Host.sameThreads_enterScope alone.bound scope) rfl
  · exact blind_handleEvent event

theorem blind_perform (activations : Activations) (action : Action) (actions : List Action) :
    Blind traces (·.Alone t.system t.thread) (t.perform Recorder.frontEnd activations action actions)
      fun t' => t'.Alone := by
  unfold perform
  refine .bind (m := fun _ d => d.Alone t.system t.thread) ?_ fun performed => ?_
  · refine .onHost (f := fun host => (action.perform t.thread activations host,
      (action.perform t.thread activations host).host)) fun d alone => ?_
    exact alone.of_same (d.host.sameThreads_perform action t.thread activations) rfl
  · split
    · exact .pure fun _ alone => alone
    · next event _ => exact .bind (blind_emit event) fun progress => t.blind_afterEvent _ actions progress

theorem blind_uncaught (system : Nat) (exception : Value) :
    Blind traces (fun _ => True) (uncaught Recorder.frontEnd system exception) fun _ _ => True := by
  refine .reading (fun {d e} h => ?_) fun d => ?_
  · have kept : e.postMortem? exception = d.postMortem? exception := by
      unfold Debugger.postMortem?
      rw [h.postMortems]
    rw [h.isStarted, kept]
  · split
    · split
      · next kept _ => exact fun _ _ _ _ h alike _ => ⟨h.handlePostMortem alike system kept, trivial⟩
      · exact .pure fun _ _ => trivial
    · exact .pure fun _ _ => trivial

theorem blind_step (t : ReplayThread Error) :
    Blind traces t.Alone (t.step Recorder.frontEnd) fun t' => t'.Alone := by
  obtain ⟨thread, system, steps, phase⟩ := t
  cases phase with
  | starting =>
      refine .bind (m := fun _ d => d.Alone system thread) ?_ fun scope => .pure fun _ alone => alone
      refine .onHost (f := fun host => (host.scopes.enterMethod.1,
        { host with scopes := host.scopes.enterMethod.2 }.bind system thread)) fun d alone => ?_
      obtain ⟨alive, tended⟩ : d.host.isAlive thread ∧ d.Tended := alone
      have entered (other : Thread) :
          ({ d.host with scopes := d.host.scopes.enterMethod.2 }.bind system thread).isAlive other =
            d.host.isAlive other := Host.isAlive_bind _ system thread other
      refine ⟨?_, (entered thread).trans alive, tended.of_same (fun other alive => ?_) rfl⟩
      · exact (Host.boundTo?_bind _ system system thread).trans (if_pos rfl)
      · exact (entered other).trans alive
  | running activations actions =>
      cases actions with
      | nil =>
          change Blind traces _ (finish Recorder.frontEnd _ activations) _
          unfold finish
          split
          · exact (blind_exit _).of_imp fun _ _ => trivial
          · next exception _ =>
              exact ((blind_uncaught system exception).of_imp fun _ _ => trivial).bind
                fun result => blind_exit result
      | cons action actions => exact blind_perform activations action actions
  | waiting activations actions pending =>
      by_cases own : pending.system = system
      · refine ((blind_continueEvent own).of_imp fun _ alone => alone.1).bind fun progress => ?_
        exact blind_afterEvent (t := ⟨thread, system, steps, .waiting activations actions pending⟩) _ _ progress
      · exact fun _ _ _ _ _ _ alone => absurd alone.2 own
  | exited result => exact .pure fun _ _ => trivial

theorem blind_advance (t : ReplayThread Error) (n : Nat) :
    Blind traces t.Alone (t.advance Recorder.frontEnd n) fun t' => t'.Alone := by
  induction n generalizing t with
  | zero => exact .pure fun _ alone => alone
  | succ n ih =>
      refine .reading (fun {d e} h => ?_) fun d => ?_
      · rw [h.canMove]
      · split
        · exact t.blind_step.bind fun t' => ih t'
        · exact .pure fun _ alone => alone

end ReplayThread

/-! ## Rounds -/

def Solitary (threads : List (ReplayThread Error)) (d : Debugger) : Prop :=
  threads.length ≤ 1 ∧ ∀ t ∈ threads, t.Alone d

section

variable {traces : Bool}

theorem blind_replayRound (threads : List (ReplayThread Error)) :
    Blind traces (Solitary threads) (replayRound Recorder.frontEnd threads) fun moved => Solitary moved.2 := by
  cases threads with
  | nil => exact .pure fun _ h => h
  | cons t ts =>
      cases ts with
      | cons u us => exact fun _ _ _ _ _ _ h => absurd h.1 (Nat.not_succ_le_zero _ ∘ Nat.le_of_succ_le_succ)
      | nil =>
          have advanced : Blind traces _ _ _ := t.blind_advance t.movesLeft
          refine (advanced.of_imp fun _ h => h.2 t List.mem_cons_self).bind fun moved => ?_
          refine .bind (m := fun rest d => rest.2 = [] ∧ moved.Alone d) (.pure fun _ alone => ⟨rfl, alone⟩)
            fun rest => .pure fun d h => ?_
          rw [h.1]
          exact ⟨Nat.le_refl 1, fun u member => List.mem_singleton.mp member ▸ h.2⟩

theorem blind_replayRounds (n : Nat) (threads : List (ReplayThread Error)) :
    Blind traces (Solitary threads) (replayRounds Recorder.frontEnd n threads) fun _ _ => True := by
  induction n generalizing threads with
  | zero => exact .pure fun _ _ => trivial
  | succ n ih =>
      refine .reading (fun {d e} h => ?_) fun d => ?_
      · simp only [h.canMove]
      · split
        · refine (blind_replayRound threads).bind fun round => ?_
          exact (ih round.2).bind fun later => .pure fun _ _ => trivial
        · exact .pure fun _ _ => trivial

end

end EventDebugger
