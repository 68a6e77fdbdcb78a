import EventDebugger.Proofs.Ticket.System
import EventDebugger.Replay

/-!
# Replayed threads, interleaved

The threads of a program that is replayed, each on a system thread of its own, as a transition system.
Between an action and the arrival of its event, and between the steps of the event, other threads can
take any number of steps. The front-end may make any request but starts and stops.
-/

namespace EventDebugger

/-- The positions of activations, the innermost one first. The top-level one counts once it executed a
line. -/
def Activations.positions (activations : Activations) (lined : Bool) : List Position :=
  activations.inner.map (·.position) ++ if lined then [activations.root.position] else []

def Action.isTopLine (action : Action) (activations : Activations) : Bool :=
  match action with
  | .line _ _ _ => activations.inner.isEmpty
  | _ => false

/-- Where a replayed thread stands. -/
inductive Actor.Phase where
  | starting
  | running (activations : Activations) (actions : List Action)
  /-- The scope of an event was entered, and the event is about to be notified. -/
  | notifying (event : Event) (activations : Activations) (actions : List Action)
  /-- The event of the last action is on its way. -/
  | handling (activations : Activations) (actions : List Action)
  /-- An action failed, or none is left; the post-mortem of an exception may follow. -/
  | ending
  | ended
deriving DecidableEq, Repr

/-- A replayed thread. -/
structure Actor where
  thread : Thread
  steps : List Step
  /-- Whether the top-level code executed a line. -/
  lined : Bool
  phase : Actor.Phase

/-- The threads of a program on their system threads. -/
structure Play where
  world : World
  actors : Nat → Option Actor

/-- The host after an action, where the scope of its event was entered. -/
def Performed.entered (performed : Performed) (system : Nat) : Host :=
  match performed.event.bind (·.scope) with
  | some scope => performed.host.enterScope system scope
  | none => performed.host

/-- Whether a step belongs to the way of an event that has arrived. -/
def Move.handles : Move → Bool
  | .ask | .awake | .dispatch | .answer | .fail | .release => true
  | .request asked => !asked.isActivation
  | _ => false

def Move.inspects : Move → Bool
  | .enterPostMortem | .leavePostMortem => true
  | .request asked => !asked.isActivation
  | _ => false

namespace Play

def move (p : Play) (s : Nat) (actor : Actor) (w : World) : Play :=
  ⟨w, Function.update p.actors s (some actor)⟩

/-- A thread starts: the scope of its top-level code is made, and the system thread bound to it. -/
def start (p : Play) (s : Nat) (actor : Actor) : Play :=
  let host := p.world.debugger.host
  let activations := Activations.start host.scopes.enterMethod.1
  let started := { host with scopes := host.scopes.enterMethod.2 }.bind s actor.thread
  p.move s { actor with phase := .running activations (Step.toActionsAll actor.steps).actions }
    (p.world.become { p.world.debugger with host := started })

def perform (p : Play) (s : Nat) (actor : Actor) (activations : Activations) (action : Action)
    (actions : List Action) : Play :=
  let performed := action.perform actor.thread activations p.world.debugger.host
  let phase := match performed.event with
    | none => Actor.Phase.running performed.activations actions
    | some event => .notifying event performed.activations actions
  p.move s { actor with lined := actor.lined || action.isTopLine activations, phase }
    (p.world.become { p.world.debugger with host := performed.entered s })

/-- The steps of a replayed thread. -/
inductive Step : Play → Nat → Play → Prop where
  | start {p : Play} {s : Nat} {actor : Actor} (is : p.actors s = some actor)
      (phase : actor.phase = .starting) : Step p s (p.start s actor)
  | perform {p : Play} {s : Nat} {actor : Actor} {activations : Activations} {action : Action}
      {actions : List Action} (is : p.actors s = some actor)
      (phase : actor.phase = .running activations (action :: actions)) :
      Step p s (p.perform s actor activations action actions)
  | notify {p : Play} {s : Nat} {actor : Actor} {event : Event} {activations : Activations}
      {actions : List Action} (is : p.actors s = some actor)
      (phase : actor.phase = .notifying event activations actions) :
      Step p s (p.move s { actor with phase := .handling activations actions } (p.world.arrive s event))
  | handle {p : Play} {s : Nat} {actor : Actor} {activations : Activations} {actions : List Action}
      {move : Move} {w : World} (is : p.actors s = some actor)
      (phase : actor.phase = .handling activations actions) (handles : move.handles)
      (step : p.world.Step s move w) : Step p s (p.move s actor w)
  | resume {p : Play} {s : Nat} {actor : Actor} {activations : Activations} {actions : List Action}
      (is : p.actors s = some actor) (phase : actor.phase = .handling activations actions)
      (handled : p.world.tasks s = []) :
      Step p s (p.move s { actor with phase := .running activations actions } p.world)
  | fail {p : Play} {s : Nat} {actor : Actor} {activations : Activations} {actions : List Action}
      (is : p.actors s = some actor) (phase : actor.phase = .handling activations actions)
      (handled : p.world.tasks s = []) : Step p s (p.move s { actor with phase := .ending } p.world)
  | finish {p : Play} {s : Nat} {actor : Actor} {activations : Activations}
      (is : p.actors s = some actor) (phase : actor.phase = .running activations []) :
      Step p s (p.move s { actor with phase := .ending } p.world)
  | inspect {p : Play} {s : Nat} {actor : Actor} {move : Move} {w : World}
      (is : p.actors s = some actor) (phase : actor.phase = .ending) (inspects : move.inspects)
      (step : p.world.Step s move w) : Step p s (p.move s actor w)
  | exit {p : Play} {s : Nat} {actor : Actor} (is : p.actors s = some actor)
      (phase : actor.phase = .ending) (idle : p.world.tasks s = []) :
      Step p s (p.move s { actor with phase := .ended } (p.world.become
        { p.world.debugger with host := p.world.debugger.host.exitThread actor.thread }))

/-- What the threads of a program can reach. -/
inductive Reaches : Play → Play → Prop where
  | refl (p : Play) : Reaches p p
  | step {p p' p'' : Play} {s : Nat} (run : Reaches p p') (next : Step p' s p'') : Reaches p p''

end Play

end EventDebugger
