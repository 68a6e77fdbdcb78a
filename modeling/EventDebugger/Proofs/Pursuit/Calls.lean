import EventDebugger.Proofs.Pursuit.Skips
import EventDebugger.Proofs.Ticket.Pacing
import EventDebugger.Proofs.Ticket.Progress

/-!
# Calls of the front-end in scenes

A deed with which the front-end is called is the last phase of a search, or a piece of dispatch without a search. To
any other context than its own, a phase is nothing.

* `Quest.Makes`: what a phase makes of the context that searches.
* `Scene.Calls.from`: where a call of the front-end comes from.
* `Scene.Step.involves`: what a deed is to a context.
-/

namespace EventDebugger

open Context (Follows Undue)

namespace Quest

variable {quest : Quest} {d : Debugger} {system : Nat} {id : ContextId} {phase : Quest.Phase}
  {result : (Quest.Phase ⊕ Outcome) × Debugger} {halt : Position} {events : List Event} {context context' : Context}
  {end' : Quest.Phase ⊕ Outcome}

inductive Makes (quest : Quest) (id : ContextId) (context : Context) : Quest.Phase → Quest.Phase ⊕ Outcome → Context →
    Prop where
  | due {moved : Bool} {context' : Context} (binding : Option Binding)
      (saved : context' =
        (Context.clearSteps { (context.countLine moved).setTopBinding binding with reason := .step }).savePosition) :
      Makes quest id context (.counting moved) (.inr (.call (.line id quest.position) .resumed)) context'
  | counts {moved : Bool} (undue : (context.countLine moved).Undue) :
      Makes quest id context (.counting moved) (.inl .looking) (context.countLine moved)
  | stays {phase next : Quest.Phase} : Makes quest id context phase (.inl next) context
  | ends {phase : Quest.Phase} : Makes quest id context phase (.inr .done) context
  | binds {found : Debugger.Found} (binding : Option Binding) :
      Makes quest id context (.met found) (.inl (.bound found binding))
        { context.setTopBinding binding with reason := if quest.onLine then .step else context.reason }
  | fires {found : Debugger.Found} {context' : Context} (own : found.isOwn context)
      (saved : context' = (if quest.onLine then Context.clearSteps { context with temporary := none }
        else { context with temporary := none }).savePosition) :
      Makes quest id context (.passed found) (.inr (.call (.line id quest.position) .resumed)) context'
  | reports {found : Debugger.Found} (lost : found.isOwn context = false) :
      Makes quest id context (.passed found)
        (.inr (.call (.breakpoint id found.breakpoint) (.breakpointReported quest.position quest.onLine)))
        { context with reason := .breakpoint }

theorem context_bind (known : id < d.contexts.size) (quest : Quest) (system : Nat) :
    (quest.bind d system id).2.context id =
      { (d.context id).setTopBinding (quest.bind d system id).1 with
        reason := if quest.onLine then .step else (d.context id).reason } := by
  have contexts := quest.contexts_binding d system id
  have bound := (quest.binding d system id).2.context_updateContext_self (fun context =>
    { context.setTopBinding (quest.binding d system id).1 with
      reason := if quest.onLine then .step else context.reason }) (contexts ▸ known)
  rw [show (quest.binding d system id).2.context id = d.context id by rw [Debugger.context, contexts]; rfl] at bound
  exact bound

theorem Steps.makes (steps : quest.Steps d system id phase result) (known : id < d.contexts.size) :
    quest.Makes id (d.context id) phase result.1 (result.2.context id) := by
  have updated (f : Context → Context) : id < (d.updateContext id f).contexts.size := by
    rw [d.size_updateContext]
    exact known
  cases steps with
  | @due moved =>
      have known' := updated (·.countLine moved)
      have captured : ((d.updateContext id (·.countLine moved)).captureLine system id quest.receiver).2.context id =
          { ((d.context id).countLine moved).setTopBinding
              ((d.updateContext id (·.countLine moved)).captureLine system id quest.receiver).1 with
                reason := .step } := by
        rw [Debugger.captureLine, Debugger.context_updateContext_self
          ((d.updateContext id (·.countLine moved)).captureBinding system quest.receiver).2 _ known']
        exact congrArg (fun context : Context => { context.setTopBinding _ with reason := .step })
          (d.context_updateContext_self _ known)
      have known'' := Nat.lt_of_lt_of_le known'
        ((d.updateContext id (·.countLine moved)).touches_captureLine system id quest.receiver).size
      have halted := Debugger.context_haltAt known'' quest.position true
      rw [if_pos rfl, captured] at halted
      exact .due _ halted
  | @undue moved undue =>
      rw [d.context_updateContext_self _ known] at undue ⊢
      exact .counts undue
  | still | unlisted | fails => exact .ends
  | own | other | listed | holds => exact .stays
  | binds =>
      rw [context_bind known]
      exact .binds _
  | fires own =>
      have halted := Debugger.context_haltAt (updated fun context => { context with temporary := none }) quest.position
        quest.onLine
      rw [d.context_updateContext_self _ known] at halted
      exact .fires own halted
  | reports lost =>
      rw [d.context_updateContext_self _ known]
      exact .reports lost

namespace Makes

theorem outline (makes : quest.Makes id context phase end' context') : context'.outline = context.outline := by
  cases makes with
  | @due moved _ binding saved =>
      rw [saved, Context.outline_savePosition]
      exact ((context.countLine moved).outline_setTopBinding binding).trans (context.outline_countLine moved)
  | counts => exact context.outline_countLine _
  | stays | ends | reports => rfl
  | binds binding => exact context.outline_setTopBinding binding
  | fires own saved =>
      rw [saved, Context.outline_savePosition]
      split <;> rfl

theorem follows (makes : quest.Makes id context phase end' context') (follows : context.Follows halt events)
    (stays : ∀ position next, end' = .inr (.call (.line id position) next) → context'.stack = []) :
    context'.Follows halt events := by
  have counted (moved : Bool) : (context.countLine moved).Follows halt events := by
    obtain ⟨_, _, _, same⟩ := context.countLine_eq moved
    rw [same]
    exact follows.congr rfl rfl
  cases makes with
  | due binding saved =>
      rw [saved, Context.savePosition_of_empty (saved ▸ stays _ _ rfl)]
      exact (counted _).congr rfl rfl
  | counts => exact counted _
  | stays | ends => exact follows
  | binds | reports => exact follows.congr rfl rfl
  | fires own saved =>
      rw [saved, Context.savePosition_of_empty (saved ▸ stays _ _ rfl)]
      split <;> exact follows.congr rfl rfl

theorem saves (makes : quest.Makes id context phase end' context') {position : Position} {next : Continuation}
    (halts : end' = .inr (.call (.line id position) next)) : ∃ halting : Context, context' = halting.savePosition := by
  cases makes with
  | due _ saved | fires _ saved => exact ⟨_, saved⟩
  | counts | stays | binds | ends | reports => cases halts

theorem undue (makes : quest.Makes id context phase end' context') (undue : context.Undue) : context'.Undue := by
  have saved {halting : Context} (undue : halting.Undue) : halting.savePosition.Undue :=
    Undue.congr halting.steps_savePosition undue
  cases makes with
  | due _ is => exact is ▸ saved (Context.undue_clearSteps _)
  | counts counted => exact counted
  | stays | ends | binds | reports => exact undue
  | fires own is =>
      rw [is]
      apply saved
      split
      · exact Context.undue_clearSteps _
      · exact undue

end Makes

end Quest

namespace Debugger

variable {d : Debugger} {system : Nat} {id : ContextId} {event : Event} {begun : Pursuit × Debugger}

theorem search?_of_pursuit? (unsought : d.pursuit? system id event = none) : d.search? system id event = none := by
  simp only [pursuit?] at unsought
  simp only [search?]
  split
  · rfl
  · next heeded =>
      rw [if_neg heeded] at unsought
      split
      · next at' kind =>
          rw [at', kind] at unsought
          dsimp only at unsought
          split at unsought
          · next traced => rw [if_pos traced]
          · cases unsought
      · next at' kind =>
          rw [at', kind] at unsought
          cases unsought
      · rfl

theorem place_placed (known : id < d.contexts.size) (line : event.kind.isLine) (position : Position) :
    ((d.placed system id event position).context id).place? = some position := by
  have size : id < (d.updateContext id (·.noteEvent event.position event.kind.isLine)).contexts.size := by
    rw [d.size_updateContext]
    exact known
  simp only [placed, if_pos line]
  generalize d.updateContext id (·.noteEvent event.position event.kind.isLine) = noted at size
  split
  · rw [Context.place?, outline_openFrame size]
    rfl
  · next framed =>
      rw [noted.context_updateContext_self _ size, Context.place?, Context.outline_moveTop]
      cases stack : (noted.context id).stack with
      | nil => exact absurd (by rw [stack]; rfl) framed
      | cons frame rest =>
          rw [Context.outline, stack]
          rfl

theorem context_of_pursuit? (known : id < d.contexts.size) (begins : d.pursuit? system id event = some begun) :
    (begun.2.context id).marks = ((d.context id).noteEvent event.position event.kind.isLine).marks ∧
      (begun.2.context id).steps = (d.context id).steps ∧ (begun.2.context id).place? = event.position := by
  obtain ⟨-, begins⟩ := Option.ite_none_left_eq_some.mp begins
  split at begins
  · next position at' kind =>
      obtain ⟨-, begins⟩ := Option.ite_none_left_eq_some.mp begins
      cases begins
      exact ⟨marks_placed known system event position, congrArg (·.2.2.2) (gait_placed known system event position),
        (place_placed known (by rw [kind]; rfl) position).trans at'.symm⟩
  · next position at' kind =>
      cases begins
      have known' := Nat.lt_of_lt_of_le known (d.touches_placed system id event position).size
      have opened := gait_openFrame (gait_placed known system event position) system event position
      refine ⟨marks_openFrame (marks_placed known system event position) system event position,
        congrArg (·.2.2.2) opened, ?_⟩
      rw [Context.place?, outline_openFrame known', at']
      rfl
  · cases begins

theorem size_of_pursuit? (begins : d.pursuit? system id event = some begun) :
    begun.2.contexts.size = d.contexts.size := by
  have opened (d : Debugger) (position : Position) :
      (d.openFrame system id event position).contexts.size = d.contexts.size :=
    Debugger.size_updateContext _ id (·.push _)
  have noted (position : Position) : (d.placed system id event position).contexts.size = d.contexts.size := by
    simp only [placed]
    split
    · split
      · exact (opened _ position).trans (d.size_updateContext id _)
      · exact (Debugger.size_updateContext _ id _).trans (d.size_updateContext id _)
    · exact d.size_updateContext id _
  obtain ⟨-, begins⟩ := Option.ite_none_left_eq_some.mp begins
  split at begins
  · obtain ⟨-, begins⟩ := Option.ite_none_left_eq_some.mp begins
    cases begins
    exact noted _
  · cases begins
    exact (opened _ _).trans (noted _)
  · cases begins

end Debugger

namespace World

variable {w : World} {s : Nat} {move : Move} {task : Task} {rest : List Task} {begun : Pursuit × Debugger}

theorem Pursues.size (h : w.Pursues s move task rest begun) : begun.2.contexts.size = w.debugger.contexts.size := by
  cases h with
  | dispatch tasks stage begins => exact Debugger.size_of_pursuit? begins
  | answer => rfl

theorem search?_of_unsought (unsought : (w.pursuit? s move).isNone) (id : ContextId) : w.search? s move id = none := by
  simp only [pursuit?] at unsought
  simp only [search?]
  split
  · next tasks =>
      split
      · next stage =>
          simp only [tasks, stage] at unsought
          split
          · next same => exact same ▸ Debugger.search?_of_pursuit? (Option.isNone_iff_eq_none.mp unsought)
          · rfl
      · rfl
  · next tasks =>
      split
      · next next stage =>
          simp only [tasks, stage] at unsought
          split
          · cases next with
            | lineTraced => cases unsought
            | _ => rfl
          · rfl
      · rfl
  · rfl

end World

namespace Deed

/-- Whether the front-end can be called for an event. -/
def dispatches : Deed → Bool
  | .act (.move move) => move.isDispatch
  | .next => true
  | _ => false

/-- Whether an event goes on. -/
def goesOn : Deed → Bool
  | .begin _ => true
  | deed => deed.dispatches

def isActivation : Deed → Bool
  | .act (.move move) => move.isActivation
  | _ => false

def Resets (deed : Deed) (id : ContextId) : Prop :=
  match deed with
  | .act step => step.Resets id
  | _ => False

end Deed

namespace Scene

variable {a b : Scene} {s s' : Nat} {deed : Deed} {id : ContextId} {events : List Event} {halt : Position}
  {callback : Callback} {first : ContextId}

/-- The call of the front-end on a system thread that has not returned. -/
def call? (a : Scene) (s : Nat) : Option Callback :=
  if (a.pursuits s).isSome then none else (a.world.tasks s).head?.bind (·.stage.callback?)

/-- A deed with which the front-end is called. -/
structure Calls (a : Scene) (s : Nat) (deed : Deed) (b : Scene) (callback : Callback) : Prop where
  step : a.Step s deed b
  dispatches : deed.dispatches
  calls : b.call? s = some callback

/-- The event that a deed starts to dispatch in a context that is not skipped, if it does. -/
def heeds (id : ContextId) (a : Scene) (s : Nat) (deed : Deed) : List Event :=
  match deed with
  | .act act => World.heeds id a.world s act
  | .begin move => World.heeds id a.world s (.move move)
  | _ => []

/-- No deed of this kind makes a context halt with a frame. -/
def Stays (id : ContextId) (a : Scene) (s : Nat) (deed : Deed) : Prop :=
  ∀ b position, a.Calls s deed b (.line id position) → (b.world.debugger.context id).stack = []

/-- No step over no line at all is asked for. -/
def Paced (_ : Scene) (_ : Nat) (deed : Deed) : Prop :=
  ∀ request, deed = .act (.move (.request request)) → request.isZeroStep = false

/-- No event of a context is dispatched or goes on. -/
def Aside (id : ContextId) (a : Scene) (s : Nat) (deed : Deed) : Prop :=
  deed.goesOn → ∀ task ∈ (a.world.tasks s).head?, task.context ≠ id

instance : Decidable (Aside id a s deed) :=
  inferInstanceAs (Decidable (deed.goesOn → ∀ task ∈ (a.world.tasks s).head?, task.context ≠ id))

inductive Calls.From (a : Scene) (s : Nat) (b : Scene) (callback : Callback) : Deed → Prop where
  | piece {move : Move} {task : Task} {rest : List Task} {piece : Outcome × Debugger} {next : Continuation}
      (is : a.world.Piece s move task rest piece) (unsought : ∀ id, a.world.search? s move id = none)
      (outcome : piece.1 = .call callback next)
      (leads : b = { a with world := a.world.proceed s task rest piece }) : From a s b callback (.act (.move move))
  | search {pursuit : Pursuit} {task : Task} {rest : List Task} {next : Continuation} {d : Debugger}
      (pursues : a.pursuits s = some pursuit) (tasks : a.world.tasks s = task :: rest)
      (steps : pursuit.quest.Steps a.world.debugger s task.context pursuit.phase (.inr (.call callback next), d))
      (leads : b = a.withPursuit (a.world.proceed s task rest (.call callback next, d)) s none) :
      From a s b callback .next

theorem Calls.from (h : a.Calls s deed b callback) : Calls.From a s b callback deed := by
  obtain ⟨step, dispatches, calls⟩ := h
  have called {task : Task} {rest : List Task} {piece : Outcome × Debugger}
      (tasks : b.world.tasks s = { task with stage := piece.1.stage } :: rest) :
      ∃ next, piece.1 = .call callback next := by
    simp only [call?] at calls
    split at calls
    · cases calls
    · rw [tasks] at calls
      rcases piece with ⟨_ | ⟨callback', next⟩, d⟩
      · cases calls
      · cases calls
        exact ⟨next, rfl⟩
  cases step with
  | @act act w quiet apart unsought closed acts =>
      cases acts with
      | move step =>
          obtain ⟨task, rest, piece, is, rfl⟩ := step.piece dispatches
          obtain ⟨next, outcome⟩ := called (World.tasks_proceed task rest piece)
          exact .piece is (World.search?_of_unsought unsought) outcome rfl
      | _ => cases dispatches
  | begin | skip | unskip => cases dispatches
  | next pursues tasks steps =>
      simp only [call?, pursuits_withPursuit_self, Option.isSome_some, if_true] at calls
      cases calls
  | @last pursuit task rest outcome d pursues tasks steps =>
      obtain ⟨next, rfl⟩ := called (World.tasks_proceed task rest (outcome, d))
      exact .search pursues tasks (.of_step steps) rfl

/-! ## What a deed is to a context -/

/-- What a deed is to a context: a step of the world, the beginning or a phase of a search of its own, or part of the
search of another one. -/
inductive Involves (id : ContextId) (a : Scene) (s : Nat) (deed : Deed) (b : Scene) : Prop where
  | acts {act : Act} (acts : a.world.Acts s act b.world) (heeds : heeds id a s deed = World.heeds id a.world s act)
      (goesOn : ∀ move, act = .move move → move.isDispatch → deed.goesOn) (resets : act.Resets id → deed.Resets id)
      (paced : ∀ request, act = .move (.request request) → deed = .act act)
      (halts : ∀ move w, act = .move move → a.world.Halts s move w id →
        ∃ position, a.Calls s deed { a with world := w } (.line id position))
  | begins {event : Event} (goesOn : ¬ Aside id a s deed) (heeds : heeds id a s deed = [event])
      (marks : (b.world.debugger.context id).marks =
        ((a.world.debugger.context id).noteEvent event.position event.kind.isLine).marks)
      (steps : (b.world.debugger.context id).steps = (a.world.debugger.context id).steps)
      (place : (b.world.debugger.context id).place? = event.position)
  | phase {quest : Quest} {phase : Quest.Phase} {end' : Quest.Phase ⊕ Outcome} (goesOn : ¬ Aside id a s deed)
      (heeds : heeds id a s deed = [])
      (makes : quest.Makes id (a.world.debugger.context id) phase end' (b.world.debugger.context id))
      (calls : ∀ callback next, end' = .inr (.call callback next) → a.Calls s deed b callback)
  | apart (heeds : heeds id a s deed = []) (same : b.world.debugger.context id = a.world.debugger.context id)

theorem Step.calls_proceed (step : a.Step s deed b) (dispatches : deed.dispatches) {w : World} {task : Task}
    {rest : List Task} {d : Debugger} {next : Continuation} (quiet : b.pursuits s = none)
    (leads : b.world = w.proceed s task rest (.call callback next, d)) : a.Calls s deed b callback := by
  refine ⟨step, dispatches, ?_⟩
  rw [call?, quiet, leads, World.tasks_proceed]
  rfl

theorem Step.involves (step : a.Step s deed b) (known : id < a.world.debugger.contexts.size) :
    Involves id a s deed b := by
  have own {task : Task} {rest : List Task} (tasks : a.world.tasks s = task :: rest) (goesOn : deed.goesOn) :
      ¬ Aside task.context a s deed := fun aside => aside goesOn task (tasks ▸ rfl) rfl
  cases step with
  | @act act w quiet apart unsought closed acts =>
      refine .acts acts rfl (fun move is dispatches => is ▸ dispatches) (fun resets => resets) (fun _ _ => rfl)
        fun move w' is halts => ?_
      subst is
      have step : a.Step s (.act (.move move)) { a with world := w' } :=
        .act quiet apart unsought closed (.move halts.step)
      obtain ⟨task, head, position, next, stage⟩ := halts.calls
      refine ⟨position, step, halts.dispatches, ?_⟩
      rw [call?, Option.isNone_iff_eq_none.mp quiet, Option.mem_def.mp head, Option.bind_some, stage]
      rfl
  | begin quiet closed begins =>
      obtain ⟨task, rest, is⟩ := World.pursues_of_pursuit? begins
      have touches := is.forwards.touches
      by_cases same : task.context = id
      · subst same
        cases is with
        | dispatch tasks stage begins =>
            obtain ⟨heeded, -⟩ := Debugger.quest_of_pursuit? begins
            obtain ⟨marks, steps, place⟩ := Debugger.context_of_pursuit? known begins
            refine .begins (own tasks rfl) ?_ marks steps place
            simp only [heeds, World.heeds, heeded, World.takes_eq tasks stage, Bool.false_eq_true, if_false, if_true]
        | answer tasks stage => exact .apart (World.heeds_eq_nil (World.takes_eq_nil (by rintro ⟨⟩))) rfl
      · refine .apart ?_ (touches.others id known (Ne.symm same))
        apply World.heeds_eq_nil
        cases is with
        | dispatch tasks stage => rw [World.takes_eq tasks stage, if_neg same]
        | answer => exact World.takes_eq_nil (by rintro ⟨⟩)
  | @next pursuit task rest phase d pursues tasks steps =>
      have is := Quest.Steps.of_step steps
      by_cases same : task.context = id
      · subst same
        exact .phase (own tasks rfl) rfl (is.makes known) fun _ _ ends => by cases ends
      · exact .apart rfl (is.touches.others id known (Ne.symm same))
  | @last pursuit task rest outcome d pursues tasks steps =>
      have is := Quest.Steps.of_step steps
      by_cases same : task.context = id
      · subst same
        refine .phase (own tasks rfl) rfl (is.makes known) fun callback next ends => ?_
        cases ends
        exact (Step.last pursues tasks steps).calls_proceed rfl (pursuits_withPursuit_self ..) rfl
      · exact .apart rfl (is.touches.others id known (Ne.symm same))
  | @skip other thread free bound known own =>
      have acts : a.world.Acts s _ _ := .skip other true free.2
      exact .acts acts rfl (fun _ is => by cases is) (fun resets => resets.elim) (fun _ is => by cases is)
        fun _ _ is => by cases is
  | @unskip skip outer free skips depth =>
      have acts : a.world.Acts s _ _ := .skip skip.context skip.before free.2
      exact .acts acts rfl (fun _ is => by cases is) (fun resets => resets.elim) (fun _ is => by cases is)
        fun _ _ is => by cases is

end Scene

end EventDebugger
