import EventDebugger.Proofs.Pursuit.Calls

/-!
# Contexts in the course of scenes

What is known of a context from one deed to the next: since its last halt, at the last event that it took, and of
its steps.

* `Scene.Step.keeps`: what other deeds than those of its own events leave alone.
* `Scene.Noted.follows`: whether an event had another position than the last halt.
* `Scene.Noted.stands`: where the innermost frame is.
* `Scene.Course.undue`: whether a step is due.
-/

namespace EventDebugger

open Context (Follows Undue)

namespace Scene

variable {a b a₀ : Scene} {s : Nat} {deed : Deed} {id first : ContextId} {events : List Event} {halt : Position}
  {allowed : Scene → Nat → Deed → Prop}

theorem Step.known (step : a.Step s deed b) (known : id < a.world.debugger.contexts.size) :
    id < b.world.debugger.contexts.size := by
  cases step with
  | act quiet apart unsought closed acts => exact acts.known known
  | begin quiet closed begins =>
      obtain ⟨_, _, is⟩ := World.pursues_of_pursuit? begins
      exact Nat.lt_of_lt_of_le known is.forwards.touches.size
  | next pursues tasks steps | last pursues tasks steps =>
      exact Nat.lt_of_lt_of_le known (Quest.Steps.of_step steps).touches.size
  | skip | unskip =>
      change id < (a.world.debugger.updateContext _ _).contexts.size
      rw [Debugger.size_updateContext]
      exact known

theorem Course.known (course : Course allowed a b) (known : id < a.world.debugger.contexts.size) :
    id < b.world.debugger.contexts.size := by
  induction course with
  | refl => exact known
  | step course next ok ih => exact next.known ih

theorem Step.keeps {P : Context → Prop} (step : a.Step s deed b) (known : id < a.world.debugger.contexts.size)
    (aside : Aside id a s deed) (inert : Inert P) (loose : Untemporary P ∨ ¬ deed.Resets id) :
    Debugger.Preserves P id a.world.debugger b.world.debugger := by
  cases step.involves known with
  | acts acts heeds goesOn resets paced halts =>
      cases acts.involves known with
      | piece is own leads => exact absurd own (aside (goesOn _ rfl is.isDispatch) _ (World.head_innermost is.tasks))
      | apart unheeded idle keeps called => exact keeps inert (loose.imp_right fun not resets' => not (resets resets'))
  | begins goesOn | phase goesOn => exact absurd aside goesOn
  | apart heeds same => exact fun holds => same.symm ▸ holds

/-! ## Since a halt -/

theorem Step.follows (step : a.Step s deed b) (known : id < a.world.debugger.contexts.size)
    (follows : (a.world.debugger.context id).Follows halt events) (stays : Stays id a s deed) :
    (b.world.debugger.context id).Follows halt (events ++ heeds id a s deed) := by
  cases step.involves known with
  | acts acts same goesOn resets paced halts =>
      rw [same]
      refine acts.follows known follows fun move w is halted => ?_
      obtain ⟨position, calls⟩ := halts move w is halted
      exact stays _ position calls
  | begins goesOn same marks steps place =>
      rw [same]
      simp only [Context.marks, Prod.mk.injEq] at marks
      exact (follows.noteEvent _).congr marks.1 marks.2.1
  | phase goesOn same makes calls =>
      rw [same, List.append_nil]
      exact makes.follows follows fun position next halts => stays b position (calls _ _ halts)
  | apart same kept =>
      rw [same, List.append_nil, kept]
      exact follows

theorem Noted.follows (noted : Noted allowed (heeds id) a events b) (known : id < a.world.debugger.contexts.size)
    (follows : (a.world.debugger.context id).Follows halt [])
    (stays : ∀ {a s deed}, allowed a s deed → Stays id a s deed) :
    (b.world.debugger.context id).Follows halt events := by
  induction noted with
  | refl => exact follows
  | step noted next ok ih => exact next.follows (noted.course.known known) ih (stays ok)

/-! ## The last event -/

/-- The innermost frame is at the position of the last event that a context took, if the front-end can be called for
it and there is a frame. -/
def Stands (id : ContextId) (a : Scene) (events : List Event) : Prop :=
  ∀ event position, events.getLast? = some event → event.kind.mayCall → event.position = some position →
    id < a.world.debugger.contexts.size ∧
      ((a.world.debugger.context id).place? = some position ∨ (a.world.debugger.context id).stack = [])

theorem inert_stands (position : Position) :
    Inert fun context => context.place? = some position ∨ context.stack = [] where
  tolerant := ⟨fun h _ _ _ => h, fun _ _ _ _ => .inr rfl⟩
  unstepped h _ _ _ _ _ _ := h
  bare _ := .inr rfl
  skips h _ := h

theorem stack_of_outline {context context' : Context} (same : context'.outline = context.outline) {position : Position}
    (place : context.place? = some position ∨ context.stack = []) :
    context'.place? = some position ∨ context'.stack = [] := by
  rw [Context.place?_congr same]
  refine place.imp_right fun empty => List.map_eq_nil_iff.mp (same.trans ?_)
  rw [Context.outline, empty, List.map_nil]

theorem known_of_heeds (lodged : a.world.Lodged) {event : Event} (heeded : event ∈ heeds id a s deed) :
    id < a.world.debugger.contexts.size := by
  have taken {move : Move} (heeded : event ∈ World.heeds id a.world s (.move move)) :
      id < a.world.debugger.contexts.size := by
    simp only [World.heeds] at heeded
    split at heeded
    · cases heeded
    · simp only [World.takes] at heeded
      split at heeded
      · next task rest tasks =>
          split at heeded
          · next stage =>
              split at heeded
              · next own =>
                  have event : task.stage.isInspecting = false := by rw [stage]; rfl
                  exact own ▸ (lodged.home s task (World.mem_innermost tasks) event).1
              · cases heeded
          · cases heeded
      · cases heeded
  cases deed with
  | act act =>
      cases act with
      | move move => exact taken heeded
      | _ => cases heeded
  | begin move => exact taken heeded
  | _ => cases heeded

end Scene

theorem World.Piece.stands {w : World} {s : Nat} {move : Move} {task : Task} {rest : List Task}
    {piece : Outcome × Debugger} {events : List Event} {event : Event} {position : Position}
    (is : w.Piece s move task rest piece) (known : task.context < w.debugger.contexts.size)
    (before : events.getLast? = some event → (w.debugger.context task.context).place? = some position ∨
      (w.debugger.context task.context).stack = [])
    (last : (events ++ heeds task.context w s (.move move)).getLast? = some event) (mayCall : event.kind.mayCall)
    (at' : event.position = some position) :
    (piece.2.context task.context).place? = some position ∨ (piece.2.context task.context).stack = [] := by
  cases is with
  | dispatch tasks stage =>
      rename_i event'
      cases skipped : (w.debugger.context task.context).skipped with
      | true =>
          have passed : w.debugger.dispatch s task.context event' = (.done, w.debugger) := by
            simp only [Debugger.dispatch, skipped, if_true]
          simp only [heeds, skipped, if_true, List.append_nil] at last
          rw [passed]
          exact before last
      | false =>
          simp only [heeds, skipped, takes_eq tasks stage, Bool.false_eq_true, if_false, if_true,
            List.getLast?_concat] at last
          cases last
          have outline := (Debugger.leaves_dispatch known s skipped at').1.outline
          rw [Context.place?, outline]
          refine (event.head_effect mayCall w.debugger.opensNativeFrame position _).imp_right fun empty => ?_
          exact List.map_eq_nil_iff.mp (outline.trans empty.1)
  | answer tasks stage =>
      rw [heeds_eq_nil (takes_eq_nil (by rintro ⟨⟩)), List.append_nil] at last
      exact Scene.stack_of_outline (Debugger.leaves_run known s _).outline (before last)

namespace Scene

variable {a b : Scene} {s : Nat} {deed : Deed} {id first : ContextId} {events : List Event}
  {allowed : Scene → Nat → Deed → Prop}

theorem Step.stands (step : a.Step s deed b) (lodged : a.world.Lodged) (stands : Stands id a events) :
    Stands id b (events ++ heeds id a s deed) := by
  intro event position last mayCall at'
  have known : id < a.world.debugger.contexts.size := by
    cases heeded : heeds id a s deed with
    | nil =>
        rw [heeded, List.append_nil] at last
        exact (stands event position last mayCall at').1
    | cons other rest => exact known_of_heeds lodged (heeded ▸ List.mem_cons_self)
  refine ⟨step.known known, ?_⟩
  cases step.involves known with
  | acts acts same goesOn resets paced halts =>
      rw [same] at last
      cases acts.involves known with
      | piece is own leads =>
          subst own
          rw [leads]
          exact is.stands known (fun last => (stands event position last mayCall at').2) last mayCall at'
      | apart unheeded idle keeps called =>
          rw [unheeded, List.append_nil] at last
          exact keeps (inert_stands position) (.inl fun h _ _ => h) (stands event position last mayCall at').2
  | begins goesOn same marks steps place =>
      rw [same, List.getLast?_concat] at last
      cases last
      exact .inl (place.trans at')
  | phase goesOn same makes calls =>
      rw [same, List.append_nil] at last
      exact stack_of_outline makes.outline (stands event position last mayCall at').2
  | apart same kept =>
      rw [same, List.append_nil] at last
      rw [kept]
      exact (stands event position last mayCall at').2

theorem Noted.stands (noted : Noted allowed (heeds id) a events b) (sound : a.Sound first) : Stands id b events := by
  induction noted with
  | refl => exact fun _ _ last => by cases last
  | step noted next ok ih => exact next.stands (noted.course.sound sound).heard.lodged ih

/-! ## Steps -/

theorem Step.undue (step : a.Step s deed b) (lodged : a.world.Lodged) (paced : Paced a s deed) :
    Debugger.Preserves Undue id a.world.debugger b.world.debugger := by
  intro undue
  have unknown (new : ¬ id < a.world.debugger.contexts.size)
      (size : b.world.debugger.contexts.size = a.world.debugger.contexts.size) :
      (b.world.debugger.context id).Undue := by
    rw [Debugger.context_unknown (size ▸ Nat.not_lt.mp new)]
    rfl
  by_cases known : id < a.world.debugger.contexts.size
  · cases step.involves known with
    | acts acts same goesOn resets request halts =>
        refine acts.undue lodged (fun asked is => paced asked ?_) undue
        exact is ▸ request asked is
    | begins goesOn same marks steps place => exact undue.congr steps
    | phase goesOn same makes calls => exact makes.undue undue
    | apart same kept => exact kept.symm ▸ undue
  · cases step with
    | act quiet apart unsought closed acts => exact acts.undue lodged (fun request is => paced request (is ▸ rfl)) undue
    | begin quiet closed begins =>
        obtain ⟨_, _, is⟩ := World.pursues_of_pursuit? begins
        exact unknown known is.size
    | next pursues tasks steps | last pursues tasks steps => exact unknown known (Quest.Steps.of_step steps).size
    | skip | unskip => exact unknown known (Debugger.size_updateContext ..)

theorem Course.undue (course : Course Paced a b) (sound : a.Sound first)
    (undue : (a.world.debugger.context id).Undue) : (b.world.debugger.context id).Undue := by
  induction course with
  | refl => exact undue
  | step course next paced ih => exact next.undue (course.sound sound).heard.lodged paced ih

end Scene

end EventDebugger
