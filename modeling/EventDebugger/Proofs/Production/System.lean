import EventDebugger.Proofs.Production.Drift
import EventDebugger.Proofs.Replay.Spawning

/-!
# A program is run

A call that runs a program, as a transition system: the threads of the program are spawned, each of
them is prepared by the caller, they run on system threads of their own until the last one is through,
and the call returns the first error. If a preparation fails, none of them starts.

A step is one operation on the host or the debugger. Between two steps of a thread others can take any
number of steps, and whatever else uses the debugger can leave it as it likes, as long as it binds no
thread of the program. A front-end may fail whenever it is called.
-/

namespace EventDebugger

variable {ε : Type}

/-- What a thread of a program did. -/
inductive Player.Deed (ε : Type) where
  | acted (action : Action)
  | notified (event : Event)
  /-- The event that was notified is over. -/
  | answered (result : HookResult ε)
  /-- A post-mortem was entered. -/
  | inspected (result : HookResult ε)

/-- An event on its way, and how its thread goes on after it. -/
structure Player.Errand where
  thread : Thread
  context : ContextId
  activations : Activations
  actions : List Action

/-- Where a thread of a program stands. -/
inductive Player.Phase (ε : Type) where
  | starting
  | running (activations : Activations) (actions : List Action)
  /-- The scope of an event is about to be entered, if it has one. -/
  | entering (event : Event) (activations : Activations) (actions : List Action)
  | notifying (event : Event) (activations : Activations) (actions : List Action)
  /-- An event has arrived. The front-end may have failed on it. -/
  | handling (errand : Player.Errand) (stage : Stage) (failure : Option ε)
  /-- Nothing caught an exception. -/
  | raising (exception : Value)
  /-- The debugger was found active. -/
  | recalling (exception : Value)
  | mourning (postMortem : PostMortem)
  /-- The front-end is called on a post-mortem. -/
  | inspecting (before : ContextId × Bool × Bool)
  | leaving (before : ContextId × Bool × Bool) (failure : Option ε)
  /-- The thread is about to exit. -/
  | ending (result : HookResult ε)
  /-- The thread has exited, and its result is about to be looked at. -/
  | exited (result : HookResult ε)
  | gone (result : HookResult ε)
  /-- The thread has exited without having started. -/
  | abandoned

/-- A thread of a program, and what it did so far. -/
structure Player (ε : Type) where
  thread : Thread
  steps : List Step
  deeds : List (Player.Deed ε)
  phase : Player.Phase ε

namespace Player

def resultOf : Option ε → HookResult ε
  | none => .ok ()
  | some error => .error (.frontEnd error)

def errorOf : HookResult ε → Option (HookError ε)
  | .ok () => none
  | .error error => some error

def become (player : Player ε) (phase : Phase ε) : Player ε := { player with phase }

@[simp]
theorem phase_become (player : Player ε) (phase : Phase ε) : (player.become phase).phase = phase := rfl

def did (player : Player ε) (deed : Deed ε) (phase : Phase ε) : Player ε :=
  { player with deeds := player.deeds ++ [deed], phase }

@[simp]
theorem phase_did (player : Player ε) (deed : Deed ε) (phase : Phase ε) :
    (player.did deed phase).phase = phase := rfl

def answer (player : Player ε) (activations : Activations) (actions : List Action) :
    HookResult ε → Player ε
  | .ok () => player.did (.answered (.ok ())) (.running activations actions)
  | .error error => player.did (.answered (.error error)) (.ending (.error error))

def inspect (player : Player ε) (result : HookResult ε) : Player ε :=
  player.did (.inspected result) (.ending result)

def perform (player : Player ε) (actions : List Action) (action : Action) (performed : Performed) :
    Player ε :=
  match performed.event with
  | none => player.did (.acted action) (.running performed.activations actions)
  | some event => player.did (.acted action) (.entering event performed.activations actions)

def arrive (player : Player ε) (event : Event) (activations : Activations) (actions : List Action) :
    Option (Thread × ContextId) → Player ε
  | none =>
      let notified := player.did (.notified event) (.notifying event activations actions)
      notified.answer activations actions (.ok ())
  | some (thread, context) =>
      player.did (.notified event)
        (.handling ⟨thread, context, activations, actions⟩ (.asking event) none)

def contend (player : Player ε) (errand : Errand) (event : Event) : Turn × Debugger → Player ε
  | (.ticket, _) => player.become (.handling errand (.admitted event) none)
  | (.dropped, _) => player.answer errand.activations errand.actions (.ok ())
  | (.wait reason, d) => player.become (.handling errand (.waiting event reason d.wakeups) none)

def finish (player : Player ε) (activations : Activations) : Player ε :=
  match activations.raised with
  | none => player.become (.ending (.ok ()))
  | some exception => player.become (.raising exception)

def enter (player : Player ε) : Except Error (ContextId × Bool × Bool) → Player ε
  | .ok before => player.become (.inspecting before)
  | .error error => player.inspect (.error (.debugger error))

/-- Leaves a post-mortem. A command of the debugger that fails has the last word. -/
def leave (player : Player ε) (failure : Option ε) : Except Error Unit → Player ε
  | .ok () => player.inspect (resultOf failure)
  | .error error => player.inspect (.error (.debugger error))

end Player

/-- How far the call got. -/
inductive Production.Call (ε : Type) where
  | declaring (system : Nat) (program : Program)
  | spawning (system : Nat) (decls : List ThreadDecl)
  /-- A number of threads is not yet prepared. -/
  | preparing (left : Nat)
  /-- A preparation failed, and the threads on some system threads have not yet exited. -/
  | abandoning (error : Error) (left : List Nat)
  /-- The call has returned with the error of a preparation. -/
  | refused (error : Error)
  /-- The threads run. -/
  | joining
  /-- The call has returned after all threads were through. -/
  | finished (result : HookResult ε)

def Production.Call.result? : Production.Call ε → Option (HookResult ε)
  | .refused error => some (.error (.debugger error))
  | .finished result => some result
  | _ => none

/-- A call that runs a program, and the threads it spawned on their system threads. -/
structure Production (ε : Type) where
  debugger : Debugger
  call : Production.Call ε
  /-- The system threads of the spawned threads, in order. -/
  cast : List Nat
  players : Nat → Option (Player ε)
  /-- The error that was reported first. -/
  first : Option (HookError ε)

namespace Production

/-- The call is made: the threads of the program get the system threads from `system` on. -/
def opening (d : Debugger) (system : Nat) (program : Program) : Production ε :=
  ⟨d, .declaring system program, [], fun _ => none, none⟩

/-- The threads of the program. -/
def Owns (p : Production ε) (thread : Thread) : Prop :=
  ∃ s player, p.players s = some player ∧ player.thread = thread

/-- Lets a thread stand elsewhere, after an operation on the debugger. -/
def move (p : Production ε) (s : Nat) (player : Player ε) (d : Debugger) : Production ε :=
  { p with debugger := d, players := Function.update p.players s (some player) }

def calling (p : Production ε) (call : Call ε) : Production ε := { p with call }

def onHost (p : Production ε) (host : Host) : Debugger := { p.debugger with host }

def spawn (p : Production ε) (system : Nat) (decl : ThreadDecl) (decls : List ThreadDecl) :
    Production ε :=
  let spawned := p.debugger.host.spawn decl
  { p.move system ⟨spawned.1, decl.steps, [], .starting⟩ (p.onHost spawned.2) with
    call := .spawning (system + 1) decls
    cast := p.cast ++ [system] }

/-- A thread starts: its system thread is bound, and the scope of its top-level code is made. -/
def start (p : Production ε) (s : Nat) (player : Player ε) : Production ε :=
  let host := p.debugger.host
  let activations := Activations.start host.scopes.enterMethod.1
  p.move s (player.become (.running activations (Step.toActionsAll player.steps).actions))
    (p.onHost ({ host with scopes := host.scopes.enterMethod.2 }.bind s player.thread))

def exit (p : Production ε) (s : Nat) (player : Player ε) (phase : Player.Phase ε) : Production ε :=
  p.move s (player.become phase) (p.onHost (p.debugger.host.exitThread player.thread))

/-- The result of a thread is looked at: the first error is kept. -/
def report (p : Production ε) (s : Nat) (player : Player ε) (result : HookResult ε) : Production ε :=
  { p.move s (player.become (.gone result)) p.debugger with
    first := p.first.or (Player.errorOf result) }

def outcome (p : Production ε) : HookResult ε := p.first.elim (.ok ()) .error

def perform (p : Production ε) (s : Nat) (player : Player ε) (activations : Activations)
    (action : Action) (actions : List Action) : Production ε :=
  let performed := action.perform player.thread activations p.debugger.host
  p.move s (player.perform actions action performed) (p.onHost performed.host)

def entered (p : Production ε) (s : Nat) (event : Event) : Host :=
  match event.scope with
  | some scope => p.debugger.host.enterScope s scope
  | none => p.debugger.host

def contend (p : Production ε) (s : Nat) (player : Player ε) (errand : Player.Errand) (event : Event)
    (granted : Bool) : Production ε :=
  let contended := p.debugger.contend errand.thread errand.context granted
  p.move s (player.contend errand event contended) contended.2

def proceed (p : Production ε) (s : Nat) (player : Player ε) (errand : Player.Errand)
    (piece : Outcome × Debugger) : Production ε :=
  p.move s (player.become (.handling errand piece.1.stage none)) piece.2

/-- The steps of the threads that run. -/
inductive Act (p : Production ε) (s : Nat) (player : Player ε) : Production ε → Prop where
  | perform {activations action actions} (phase : player.phase = .running activations (action :: actions)) :
      Act p s player (p.perform s player activations action actions)
  | enter {event activations actions} (phase : player.phase = .entering event activations actions) :
      Act p s player (p.move s (player.become (.notifying event activations actions))
        (p.onHost (p.entered s event)))
  | notify {event activations actions} (phase : player.phase = .notifying event activations actions) :
      Act p s player (p.move s (player.arrive event activations actions (p.debugger.arrive s event).1)
        (p.debugger.arrive s event).2)
  | ask {errand event failure} (phase : player.phase = .handling errand (.asking event) failure) :
      Act p s player (p.contend s player errand event false)
  | awake {errand event reason since failure}
      (phase : player.phase = .handling errand (.waiting event reason since) failure)
      (awake : p.debugger.isAwake ⟨s, errand.thread, errand.context, event, reason, since⟩) :
      Act p s player (p.contend s player errand event (reason == .queued))
  | dispatch {errand event failure} (phase : player.phase = .handling errand (.admitted event) failure) :
      Act p s player (p.proceed s player errand (p.debugger.dispatch s errand.context event))
  | answer {errand callback next failure}
      (phase : player.phase = .handling errand (.called callback next) failure) :
      Act p s player (p.proceed s player errand (next.run p.debugger s errand.context))
  | fail {errand callback next failure} (error : ε)
      (phase : player.phase = .handling errand (.called callback next) failure) :
      Act p s player (p.move s (player.become (.handling errand .handled (some error))) p.debugger)
  | release {errand failure} (phase : player.phase = .handling errand .handled failure) :
      Act p s player (p.move s
        (player.answer errand.activations errand.actions (Player.resultOf failure)) p.debugger.release)
  | finish {activations} (phase : player.phase = .running activations []) :
      Act p s player (p.move s (player.finish activations) p.debugger)
  | consult {exception} (phase : player.phase = .raising exception) (active : p.debugger.isStarted) :
      Act p s player (p.move s (player.become (.recalling exception)) p.debugger)
  | forget {exception} (phase : player.phase = .raising exception)
      (inactive : p.debugger.isStarted = false) :
      Act p s player (p.move s (player.become (.ending (.ok ()))) p.debugger)
  | mourn {exception postMortem} (phase : player.phase = .recalling exception)
      (found : p.debugger.postMortem? exception = some postMortem) :
      Act p s player (p.move s (player.become (.mourning postMortem)) p.debugger)
  | shrug {exception} (phase : player.phase = .recalling exception)
      (missing : p.debugger.postMortem? exception = none) :
      Act p s player (p.move s (player.become (.ending (.ok ()))) p.debugger)
  | pass {postMortem} (phase : player.phase = .mourning postMortem)
      (empty : (p.debugger.context postMortem.context).stack.isEmpty) :
      Act p s player (p.move s (player.inspect (.ok ())) p.debugger)
  | inspect {postMortem} (phase : player.phase = .mourning postMortem)
      (framed : (p.debugger.context postMortem.context).stack.isEmpty = false) :
      Act p s player (p.move s (player.enter (p.debugger.enterPostMortem s).1)
        (p.debugger.enterPostMortem s).2)
  /-- Other threads come between the commands on the entry, one of which fails. -/
  | refuse {postMortem} (error : Error) (phase : player.phase = .mourning postMortem) :
      Act p s player (p.move s (player.enter (.error error)) p.debugger)
  | look {before} (failure : Option ε) (phase : player.phase = .inspecting before) :
      Act p s player (p.move s (player.become (.leaving before failure)) p.debugger)
  | leave {before failure} (phase : player.phase = .leaving before failure) :
      Act p s player (p.move s (player.leave failure (p.debugger.leavePostMortem s before).1)
        (p.debugger.leavePostMortem s before).2)
  /-- Other threads come between the commands on the way out, one of which fails. -/
  | spoil {before failure} (error : Error) (phase : player.phase = .leaving before failure) :
      Act p s player (p.move s (player.leave failure (.error error)) p.debugger)

/-- The steps of the call, of its threads and of everything else. -/
inductive Step (p : Production ε) : Production ε → Prop where
  | declare {system program} (call : p.call = .declaring system program) :
      Step p { p.calling (.spawning system program.threads) with
        debugger := p.onHost (p.debugger.host.declare program) }
  | spawn {system decl decls} (call : p.call = .spawning system (decl :: decls)) :
      Step p (p.spawn system decl decls)
  | spawned {system} (call : p.call = .spawning system []) :
      Step p (p.calling (.preparing p.cast.length))
  | prepare {left} (call : p.call = .preparing (left + 1)) : Step p (p.calling (.preparing left))
  | refuse {left} (error : Error) (call : p.call = .preparing (left + 1)) :
      Step p (p.calling (.abandoning error p.cast))
  | abandon {error s left player} (call : p.call = .abandoning error (s :: left))
      (is : p.players s = some player) :
      Step p ((p.exit s player .abandoned).calling (.abandoning error left))
  | refused {error} (call : p.call = .abandoning error []) : Step p (p.calling (.refused error))
  | launch (call : p.call = .preparing 0) : Step p (p.calling .joining)
  | start {s player} (call : p.call = .joining) (is : p.players s = some player)
      (phase : player.phase = .starting) : Step p (p.start s player)
  | act {s player p'} (is : p.players s = some player) (act : p.Act s player p') : Step p p'
  | exit {s player result} (is : p.players s = some player) (phase : player.phase = .ending result) :
      Step p (p.exit s player (.exited result))
  | report {s player result} (is : p.players s = some player)
      (phase : player.phase = .exited result) : Step p (p.report s player result)
  | join (call : p.call = .joining)
      (through : ∀ s ∈ p.cast, ∃ player result, p.players s = some player ∧ player.phase = .gone result) :
      Step p (p.calling (.finished p.outcome))
  /-- The front-end, the preparation of threads, or code that has nothing to do with the program. -/
  | meddle {d : Debugger} (drifts : Host.Drifts p.Owns p.debugger.host d.host) :
      Step p { p with debugger := d }

/-- What the call can reach. -/
inductive Reaches : Production ε → Production ε → Prop where
  | refl (p : Production ε) : Reaches p p
  | step {p p' p'' : Production ε} (run : Reaches p p') (next : Step p' p'') : Reaches p p''

variable {p p' p'' : Production ε} {s s' : Nat} {player player' q : Player ε} {d d' : Debugger}

theorem players_move_self : (p.move s player d).players s = some player := Function.update_self ..

theorem players_move_ne (ne : s' ≠ s) : (p.move s player d).players s' = p.players s' :=
  Function.update_of_ne ne ..

theorem players_move (is : (p.move s player d).players s' = some q) :
    s' = s ∧ q = player ∨ s' ≠ s ∧ p.players s' = some q := by
  by_cases same : s' = s
  · rw [same, players_move_self] at is
    exact .inl ⟨same, (Option.some.inj is).symm⟩
  · rw [players_move_ne same] at is
    exact .inr ⟨same, is⟩

theorem move_move : (p.move s player d).move s player' d' = p.move s player' d' := by
  simp only [move, Function.update_idem]

theorem move_self (is : p.players s = some player) : p.move s player p.debugger = p := by
  rw [move, ← is, Function.update_eq_self]

theorem Reaches.single (next : p.Step p') : Reaches p p' := .step (.refl p) next

theorem Reaches.trans (first : Reaches p p') (second : Reaches p' p'') : Reaches p p'' := by
  induction second with
  | refl => exact first
  | step _ next ih => exact .step ih next

end Production

end EventDebugger
