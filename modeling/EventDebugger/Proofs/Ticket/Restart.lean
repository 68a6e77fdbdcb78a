import EventDebugger.Proofs.Ticket.Discipline

/-!
# The ticket across activations

The ticket has no number. A thread that finishes an event gives back whatever ticket there is, also when
the debugger was stopped and started again meanwhile. Mutual exclusion across activations therefore
holds exactly as long as no ticket of an earlier activation is given back while another thread holds
the present one.

* `World.exclusive_of_present`: the exact condition.
* `World.not_exclusive_after_restart`: a run in which two threads hold the ticket at once.
-/

namespace EventDebugger.World

/-- One system thread at most holds a ticket of the present activation. -/
def Exclusive (w : World) : Prop :=
  ∀ {s s' task task'}, task ∈ w.tasks s → task.Holds w.activation → task' ∈ w.tasks s' →
    task'.Holds w.activation → s = s'

/-- Steps that do not give back a ticket of an earlier activation while a thread holds the present one. -/
def Present (w : World) (s : Nat) (move : Move) : Prop := ¬ w.Overrides s move

/-- Steps in which no thread that finishes an event gives away or clears the ticket of another thread. -/
def Respectful (w : World) (s : Nat) (move : Move) : Prop :=
  ∀ {w' thread}, move = .release → w.Step s move w' → w.holder = some thread →
    (∀ task ∈ w.tasks s, task.thread ≠ thread) → w'.holder = some thread

theorem Orderly.exclusive {w : World} (h : w.Orderly) (active : w.debugger.isStarted) : w.Exclusive := by
  obtain ⟨⟨holder, waiting⟩, ticket⟩ :=
    Option.isSome_iff_exists.mp ((session_isSome_iff w.debugger).mp active)
  intro s s' task task' member holds member' holds'
  have first := (h.custody ticket).single _ ⟨s, task, member, rfl, holds⟩
  have second := (h.custody ticket).single _ ⟨s', task', member', rfl, holds'⟩
  exact h.same_system member' member (Option.some.inj (first.symm.trans second))

theorem Orderly.takes_of_overrides {w w' : World} {s : Nat} (h : w.Orderly)
    (step : w.Step s .release w') (overrides : w.Overrides s .release) :
    ∃ thread, w.holder = some thread ∧ (∀ task ∈ w.tasks s, task.thread ≠ thread) ∧
      w'.holder ≠ some thread := by
  obtain ⟨_, held, task, head, earlier⟩ := overrides
  cases step with
  | release tasks stage =>
      rename_i own rest
      rw [tasks] at head
      cases head
      obtain ⟨thread, holds⟩ := Option.ne_none_iff_exists'.mp held
      obtain ⟨⟨holder, waiting⟩, ticket, same⟩ := Option.bind_eq_some_iff.mp holds
      cases same
      have custody := h.custody ticket
      have member := mem_innermost tasks
      obtain ⟨above, _⟩ := h.above tasks
      -- an outer task that holds the present ticket got it before the one that is given back
      have other : task.thread ≠ thread := by
        rintro rfl
        rcases custody.held _ rfl with
          ⟨s', holding, otherMember, sameThread, otherHolds⟩ | ⟨s', queued, otherMember, sameThread, waits⟩
        all_goals
          have home := h.same_system member otherMember sameThread
          rw [home, tasks] at otherMember
        · rcases List.mem_cons.mp otherMember with rfl | inRest
          · exact earlier otherHolds.2
          · have order := above.order holding inRest
            rw [otherHolds.2] at order
            exact earlier (Nat.le_antisymm above.past order)
        · rcases List.mem_cons.mp otherMember with rfl | inRest
          · rw [stage] at waits
            cases waits
          · have front := above.front queued inRest
            revert front waits
            cases queued.stage <;> simp [Stage.isQueued, Stage.inFront]
      refine ⟨thread, holds, fun outer outerMember => ?_, ?_⟩
      · rw [h.same_thread member outerMember]
        exact other
      · have after : w.debugger.release.ticket = some (waiting.head?, waiting.tail) := by
          rw [w.debugger.ticket_release, ticket, Option.map_some]
        rw [holder_eq (w := (w.become w.debugger.release).set s rest) after]
        exact fun first => custody.outside thread rfl (List.mem_of_head? first)

theorem Orderly.respectful_of_present {w : World} {s : Nat} {move : Move} (h : w.Orderly)
    (present : w.Present s move) : w.Respectful s move := by
  rintro w' thread rfl step holds others
  cases step with
  | release tasks stage =>
      rename_i task rest
      obtain ⟨⟨holder, waiting⟩, ticket, same⟩ := Option.bind_eq_some_iff.mp holds
      cases same
      have member := mem_innermost tasks
      by_cases own : task.activation = w.activation
      · have single := (h.custody ticket).single _ ⟨s, task, member, rfl, by rw [stage]; rfl, own⟩
        exact absurd (Option.some.inj single).symm (others task member)
      · refine absurd ⟨rfl, ?_, task, ?_, own⟩ present
        · rw [holds]
          exact Option.some_ne_none thread
        · rw [tasks]
          rfl

theorem Orderly.present_of_respectful {w w' : World} {s : Nat} {move : Move} (h : w.Orderly)
    (step : w.Step s move w') (respectful : w.Respectful s move) : w.Present s move := by
  intro overrides
  obtain rfl := overrides.1
  obtain ⟨thread, holds, others, taken⟩ := h.takes_of_overrides step overrides
  exact taken (respectful rfl step holds others)

/-- The runs in which no thread gives away or clears the ticket of another one are those in which no
ticket of an earlier activation is given back while a thread holds the present one, and in all worlds
that they reach one thread at most holds a ticket of the present activation. -/
theorem exclusive_of_present {w₀ w : World} {got : List Thread} (idle : w₀.Idle) :
    (Run Respectful w₀ got w ↔ Run Present w₀ got w) ∧
      (Run Present w₀ got w → w.debugger.isStarted → w.Exclusive) := by
  have orderly {w : World} {got : List Thread} (run : Run Present w₀ got w) : w.Orderly :=
    run.orderly id idle.orderly
  refine ⟨⟨fun run => ?_, fun run => ?_⟩, fun run active => (orderly run).exclusive active⟩
  · induction run with
    | refl => exact .refl w₀
    | step run next respectful ih =>
        exact ih.step next ((orderly ih).present_of_respectful next respectful)
  · induction run with
    | refl => exact .refl w₀
    | step run next present ih =>
        exact ih.step next ((orderly run).respectful_of_present present)

/-! ## A restart while an event is handled -/

def renewed : World :=
  let w := firstAdmitted.become ((Request.debugger .forceStop).serve 1 firstAdmitted.debugger)
  w.become ((Request.debugger .start).serve 1 w.debugger)

def restarted : World :=
  (renewed.arrive 1 lineEvent).contend 1 ⟨⟨2, "b"⟩, 1, .asking lineEvent, false, 2, some lineEvent⟩ [] lineEvent false

def released : World :=
  let w := restarted.proceed 0 ⟨⟨1, "a"⟩, 0, .admitted lineEvent, false, 1, some lineEvent⟩ []
    (restarted.debugger.dispatch 0 0 lineEvent)
  (w.become w.debugger.release).set 0 []

def shared : World :=
  (released.arrive 0 lineEvent).contend 0 ⟨⟨1, "a"⟩, 2, .asking lineEvent, false, 2, some lineEvent⟩ [] lineEvent false

theorem run_restarted {allowed : World → Nat → Move → Prop}
    (any : ∀ w s move, move ≠ .release → allowed w s move) :
    ∃ got, Run allowed startedWithTwo got restarted := by
  obtain ⟨_, run⟩ : ∃ got, Run allowed startedWithTwo got firstAdmitted :=
    run_firstAdmitted (fun w s => any w s _ (by nofun)) fun w s => any w s _ (by nofun)
  have run := run.step (.request (s := 1) (.debugger .forceStop) (by rintro _ ⟨⟩)) (any _ _ _ (by nofun))
  have run := run.step (.request (s := 1) (.debugger .start) (by rintro _ ⟨⟩)) (any _ _ _ (by nofun))
  have run := run.step (.arrive (w := renewed) (s := 1) lineEvent (by rintro _ ⟨⟩)) (any _ _ _ (by nofun))
  have asks : (renewed.arrive 1 lineEvent).tasks 1 =
    [⟨⟨2, "b"⟩, 1, .asking lineEvent, false, 2, some lineEvent⟩] := rfl
  exact ⟨_, run.step (.ask asks rfl) (any _ _ _ (by nofun))⟩

theorem exclusive_restarted : ∃ got, Run Present startedWithTwo got restarted ∧ restarted.Exclusive := by
  obtain ⟨got, run⟩ : ∃ got, Run Present startedWithTwo got restarted :=
    run_restarted fun _ _ _ other overrides => other overrides.1
  exact ⟨got, run, (exclusive_of_present idle_startedWithTwo).2 run rfl⟩

theorem run_shared : ∃ got, Run (fun _ _ _ => True) startedWithTwo got shared := by
  obtain ⟨_, run⟩ : ∃ got, Run (fun _ _ _ => True) startedWithTwo got restarted :=
    run_restarted fun _ _ _ _ => trivial
  have admitted : restarted.tasks 0 = [⟨⟨1, "a"⟩, 0, .admitted lineEvent, false, 1, some lineEvent⟩] := rfl
  have run := run.step (.dispatch admitted rfl) trivial
  have run := run.step (.release (s := 0) rfl rfl) trivial
  have run := run.step (.arrive (w := released) (s := 0) lineEvent (by rintro _ ⟨⟩)) trivial
  have asks : (released.arrive 0 lineEvent).tasks 0 =
    [⟨⟨1, "a"⟩, 2, .asking lineEvent, false, 2, some lineEvent⟩] := rfl
  exact ⟨_, run.step (.ask asks rfl) trivial⟩

/-- Two threads hold the ticket of the same activation. -/
theorem not_exclusive_after_restart : ∃ got w, Run (fun _ _ _ => True) startedWithTwo got w ∧
    w.debugger.isStarted ∧ ¬ w.Exclusive := by
  obtain ⟨got, run⟩ := run_shared
  refine ⟨got, shared, run, rfl, fun exclusive => ?_⟩
  have first : ⟨⟨1, "a"⟩, 2, .admitted lineEvent, false, 2, some lineEvent⟩ ∈ shared.tasks 0 := List.mem_cons_self
  have second : ⟨⟨2, "b"⟩, 1, .admitted lineEvent, false, 2, some lineEvent⟩ ∈ shared.tasks 1 := List.mem_cons_self
  have same : 0 = 1 := exclusive first ⟨rfl, rfl⟩ second ⟨rfl, rfl⟩
  omega

end EventDebugger.World
