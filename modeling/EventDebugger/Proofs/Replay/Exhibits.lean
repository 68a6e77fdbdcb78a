import EventDebugger.Proofs.Replay.Sound

/-!
# Frames while other threads run

What is known of the frames of a thread, as long as its events are handled, survives everything but the dispatch
of its own events.

* `World.Affects.exhibits`: a step of a thread leaves the frames of the others alone.
-/

namespace EventDebugger

variable {opens : Option TypeRef → Bool → Bool}

namespace Debugger

variable {d d' : Debugger} {thread : Thread} {id : ContextId} {p : CallStack → Prop}

def stackOf (d : Debugger) (thread : Thread) : CallStack :=
  (d.contextOf? thread).elim [] fun id => (d.context id).stack

theorem stackOf_eq (found : d.contextOf? thread = some id) : d.stackOf thread = (d.context id).stack := by
  rw [stackOf, found, Option.elim_some]

theorem stackOf_unknown (unknown : d.contextOf? thread = none) : d.stackOf thread = [] := by
  rw [stackOf, unknown, Option.elim_none]

theorem stackOf_eq_nil : d.stackOf thread = [] ↔ d.outlineOf thread = [] := by
  rw [stackOf, outlineOf]
  cases d.contextOf? thread with
  | none => simp only [Option.elim_none]
  | some id => exact List.map_eq_nil_iff.symm

/-- The frames of a thread have a property while the debugger is active, unless the events of the thread are
ignored. -/
def Exhibits (d : Debugger) (thread : Thread) (p : CallStack → Prop) : Prop :=
  d.isStarted → (∀ id, d.contextOf? thread = some id → (d.context id).ignored = false) → p (d.stackOf thread)

theorem Exhibits.imp {q : CallStack → Prop} (h : d.Exhibits thread p) (imp : ∀ {stack}, p stack → q stack) :
    d.Exhibits thread q := fun started wanted => imp (h started wanted)

theorem Exhibits.tracks (h : d.Exhibits thread p) (well : d.WellTracked) (alive : d.host.isAlive thread)
    (earlier : d'.isStarted → d.isStarted) (tracks : Tracks d d') : d'.Exhibits thread p := by
  intro started wanted
  cases known : d.contextOf? thread with
  | some id =>
      have found := tracks.found well alive known
      have same := tracks.core id (well.known known).1
      simp only [Context.core, Prod.mk.injEq] at same
      obtain ⟨_, _, ignored, stack⟩ := same
      rw [stackOf_eq found, stack, ← stackOf_eq known]
      refine h (earlier started) fun other is => ?_
      cases known.symm.trans is
      rw [← ignored]
      exact wanted id found
  | none =>
      have empty : d'.stackOf thread = d.stackOf thread := by
        rw [stackOf_unknown known]
        cases now : d'.contextOf? thread with
        | none => exact stackOf_unknown now
        | some id =>
            rw [stackOf_eq now]
            rcases tracks.origin well now with old | new
            · cases known.symm.trans old
            · exact (tracks.fresh id new ((tracks.tracked well).known now).1).1
      rw [empty]
      refine h (earlier started) fun other is => ?_
      cases known.symm.trans is

theorem Tends.isStarted_eq {system : Nat} (h : Tends system d d') : d'.isStarted = d.isStarted := by
  rw [Debugger.isStarted_eq, h.ticket, Debugger.isStarted_eq]

theorem Exhibits.tends {system : Nat} (h : d.Exhibits thread p) (well : d.WellTracked)
    (alive : d.host.isAlive thread) (tends : Tends system d d') : d'.Exhibits thread p :=
  h.tracks well alive (fun started => tends.isStarted_eq ▸ started) tends.tracks

theorem Exhibits.reframe {q : CallStack → Prop} (h : d.Exhibits thread p) (session : d'.session = d.session)
    (ignored : ∀ id, d.contextOf? thread = some id → (d'.context id).ignored = (d.context id).ignored)
    (stack : ∀ id, d.contextOf? thread = some id → p (d.context id).stack → q (d'.context id).stack)
    (unknown : d.contextOf? thread = none → p [] → q []) : d'.Exhibits thread q := by
  intro started wanted
  have same : d'.contextOf? thread = d.contextOf? thread := contextOf?_congr session thread
  have before : p (d.stackOf thread) := by
    apply h
    · rw [isStarted, ← session]
      exact started
    · intro id is
      rw [← ignored id is]
      exact wanted id (same.trans is)
  cases known : d.contextOf? thread with
  | none =>
      rw [stackOf_unknown (same.trans known)]
      rw [stackOf_unknown known] at before
      exact unknown known before
  | some id =>
      rw [stackOf_eq (same.trans known)]
      rw [stackOf_eq known] at before
      exact stack id known before

theorem exhibits_of_ended (ended : d.session = none) : d.Exhibits thread p := by
  intro started
  rw [isStarted, ended] at started
  cases started

end Debugger

/-! ## Steps of the debugger -/

namespace Move

variable {move : Move}

theorem lasts_of_handles (handles : move.handles) : move.isActivation = false := by
  cases move with
  | request asked => simpa [Move.handles, isActivation] using handles
  | _ => rfl

theorem lasts_of_inspects (inspects : move.inspects) : move.isActivation = false := by
  cases move with
  | request asked => simpa [Move.inspects, isActivation] using inspects
  | _ => rfl

end Move

namespace World

variable {w w' : World} {s : Nat} {move : Move}

inductive Affects (w : World) (s : Nat) (d : Debugger) : Prop where
  | tracks (earlier : d.isStarted → w.debugger.isStarted) (tracks : w.debugger.Tracks d)
  /-- A piece of dispatch. -/
  | touches {task : Task} {rest : List Task} (tasks : w.tasks s = task :: rest) (holds : task.stage.holds)
      (unhandled : task.stage ≠ .handled) (touches : Debugger.Touches s task.context w.debugger d)
  /-- The dispatch of the exit exception. -/
  | ended (ended : d.session = none)

theorem Step.affects (step : w.Step s move w') (lasts : move.isActivation = false)
    (replayed : move.handles ∨ move.inspects ∨ ∃ event, move = .arrive event) : w.Affects s w'.debugger := by
  have tends {d : Debugger} (tends : Debugger.Tends s w.debugger d) : w.Affects s d :=
    .tracks (fun started => tends.isStarted_eq ▸ started) tends.tracks
  cases step with
  | arrive event free =>
      rw [debugger_arrive]
      exact tends (w.debugger.tends_arrive s event)
  | ask tasks stage | awake tasks stage awake =>
      rw [debugger_contend]
      refine .tracks (fun started => ?_) (w.debugger.tracks_contend _ _ _)
      rw [Debugger.isStarted_contend] at started
      exact started
  | dispatch tasks stage =>
      rename_i task rest event
      rcases w.debugger.dispatch_cases s task.context event with touched | ⟨-, ended, -⟩
      · exact .touches tasks (by rw [stage]; rfl) (by simp [stage]) touched
      · exact .ended ended
  | answer tasks stage =>
      exact .touches tasks (by rw [stage]; rfl) (by simp [stage]) (w.debugger.touches_run s _ _)
  | fail tasks stage => exact .tracks id (.refl _)
  | release tasks stage =>
      refine .tracks (fun started => ?_) w.debugger.tracks_release
      rw [← Debugger.isStarted_release]
      exact started
  | request request free => exact tends (request.tends_request s w.debugger lasts)
  | enterPostMortem free =>
      rw [debugger_inspect]
      exact tends (w.debugger.tends_enterPostMortem s)
  | leavePostMortem tasks stage => exact tends (w.debugger.tends_leavePostMortem s _)
  | execute | register | begin | exit =>
      rcases replayed with handles | inspects | ⟨_, arrives⟩
      · cases handles
      · cases inspects
      · cases arrives

theorem Affects.exhibits {d : Debugger} (h : w.Affects s d) (well : w.debugger.WellTracked) {thread other : Thread}
    (alive : w.debugger.host.isAlive other) (ne : other ≠ thread)
    (own : ∀ {task rest}, w.tasks s = task :: rest → task.stage.holds → task.stage ≠ .handled →
      w.debugger.contextOf? thread = some task.context)
    {p : CallStack → Prop} (exhibits : w.debugger.Exhibits other p) : d.Exhibits other p := by
  cases h with
  | tracks earlier tracks => exact exhibits.tracks well alive earlier tracks
  | ended ended => exact Debugger.exhibits_of_ended ended
  | touches tasks holds unhandled touches =>
      have same (id : ContextId) (is : w.debugger.contextOf? other = some id) :
          d.context id = w.debugger.context id := by
        obtain ⟨known, home⟩ := well.known is
        apply touches.others id known
        rintro rfl
        exact ne (home.symm.trans (well.known (own tasks holds unhandled)).2)
      exact exhibits.reframe touches.session (fun id is => by rw [same id is])
        (fun id is h => (same id is).symm ▸ h) fun _ h => h

end World

theorem Busy.found {openers : List Opener} {activations : Activations} {lined : Bool} {d : Debugger} {thread : Thread}
    {task : Task} {rest : List Task} (busy : Busy opens openers activations lined d thread (task :: rest))
    (holds : task.stage.holds) (unhandled : task.stage ≠ .handled) : d.contextOf? thread = some task.context := by
  cases busy with
  | task _ own alone follows =>
      rw [← own]
      revert holds unhandled follows
      simp only [Task.Follows]
      cases task.stage with
      | admitted | called => exact fun _ _ follows => follows.2.found
      | handled => exact fun _ unhandled _ => absurd rfl unhandled
      | asking | waiting | inspecting => exact fun holds => by cases holds

end EventDebugger
