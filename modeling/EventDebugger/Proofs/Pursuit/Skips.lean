import EventDebugger.Proofs.Pursuit.Events

/-!
# Sections that are not debugged

A context is skipped in the sections of its own thread only. While the front-end is called for an event, sections
are entered and left again, so that from the dispatch of the event on the context is not skipped whenever the event
goes on.

* `Scene.Course.nested`: the sections of every scene that is reached.
* `Scene.Nested.heeded`: contexts are not skipped while their events search.
-/

namespace EventDebugger

def Skip.unwind (id : ContextId) (height : Nat) (skipped : Bool) (skips : List Skip) : Bool :=
  skips.foldl (fun skipped skip => if height ≤ skip.depth ∧ skip.context = id then skip.before else skipped) skipped

theorem Skip.unwind_eq_self {id : ContextId} {height : Nat} {skips : List Skip}
    (below : ∀ skip ∈ skips, skip.depth < height)
    (skipped : Bool) : unwind id height skipped skips = skipped := by
  induction skips with
  | nil => rfl
  | cons skip skips ih =>
      have lower := below skip List.mem_cons_self
      rw [unwind, List.foldl_cons, if_neg fun inside => Nat.not_le.mpr lower inside.1]
      exact ih fun other member => below other (List.mem_cons_of_mem skip member)

namespace World

variable {w w' : World} {s s' : Nat} {act : Act} {id : ContextId}

theorem Acts.skipped (acts : w.Acts s act w') (apart : act.isSkip = false) (known : id < w.debugger.contexts.size) :
    (w'.debugger.context id).skipped = (w.debugger.context id).skipped := by
  have tolerant := (neutral_skipped (w.debugger.context id).skipped).tolerant
  cases acts with
  | move step => exact step.skipped known
  | load stop free =>
      have unstepped : Unstepped (·.skipped = (w.debugger.context id).skipped) := unstepped_skipped _
      exact Debugger.keeps_prepareLoad tolerant (Debugger.interrupt_keeps unstepped) (fun same => same)
        w.debugger s stop
        rfl
  | meet free => exact Debugger.preserves_currentContext tolerant w.debugger s rfl
  | skip => cases apart
  | keep => rfl

/-- What a step makes of the tasks of its system thread: it may end a call of the front-end only if it says so, and
the front-end is called for an event only in a context that is not skipped. -/
inductive Stacks (w : World) (s : Nat) (act : Act) (w' : World) : Prop where
  | same (free : w.IsFree s) (tasks : w'.tasks s = w.tasks s)
  | pushed {task : Task} (free : w.IsFree s) (tasks : w'.tasks s = task :: w.tasks s)
      (uncalled : task.stage.callback? = none)
  | popped {task : Task} {rest : List Task} (before : w.tasks s = task :: rest) (tasks : w'.tasks s = rest)
      (closing : task.stage.inFront → act.closes)
  | moved {task task' : Task} {rest : List Task} (before : w.tasks s = task :: rest)
      (tasks : w'.tasks s = task' :: rest) (closing : task.stage.inFront → act.closes)
      (context : task'.context = task.context)
      (calls : task'.stage.callback?.isSome → task.stage.holds ∧
        (task.stage.callback?.isSome ∨ (w.debugger.context task.context).skipped = false))

theorem stacks_contend {task : Task} {rest : List Task} (before : w.tasks s = task :: rest)
    (outside : task.stage.inFront = false) (event : Event) (granted : Bool) :
    w.Stacks s act (w.contend s task rest event granted) := by
  have closing : task.stage.inFront → act.closes := fun front => absurd front (outside ▸ Bool.false_ne_true)
  simp only [World.contend]
  split
  · exact .moved before (tasks_set_self ..) closing rfl fun called => by cases called
  · exact .popped before (tasks_set_self ..) closing
  · exact .moved before (tasks_set_self ..) closing rfl fun called => by cases called

theorem Acts.stacks (acts : w.Acts s act w') : w.Stacks s act w' := by
  cases acts with
  | move step =>
      cases step with
      | arrive event free =>
          simp only [World.arrive]
          split
          · exact .same free rfl
          · exact .pushed free (tasks_set_self ..) rfl
      | ask tasks stage => exact stacks_contend tasks (by rw [stage]; rfl) _ _
      | awake tasks stage awake => exact stacks_contend tasks (by rw [stage]; rfl) _ _
      | @dispatch task rest event tasks stage =>
          refine .moved tasks (tasks_proceed ..) (fun front => ?_) rfl fun called => ⟨by rw [stage]; rfl, .inr ?_⟩
          · rw [stage] at front
            cases front
          · have calls : (w.debugger.dispatch s task.context event).1 ≠ .done := by
              intro done
              change (w.debugger.dispatch s task.context event).1.stage.callback?.isSome at called
              rw [done] at called
              cases called
            exact (Debugger.position_of_calls calls).1
      | answer tasks stage =>
          exact .moved tasks (tasks_proceed ..) (fun _ => rfl) rfl fun _ =>
            ⟨by rw [stage]; rfl, .inl (by rw [stage]; rfl)⟩
      | fail tasks stage => exact .moved tasks (tasks_proceed ..) (fun _ => rfl) rfl fun called => by cases called
      | release tasks stage =>
          refine .popped tasks (tasks_set_self ..) fun front => ?_
          rw [stage] at front
          cases front
      | leavePostMortem tasks stage => exact .popped tasks (tasks_set_self ..) fun _ => rfl
      | enterPostMortem free =>
          simp only [World.inspect]
          split
          · exact .same free rfl
          · exact .pushed free (tasks_set_self ..) rfl
      | request request free | execute free | register name free => exact .same free rfl
      | begin idle | exit idle =>
          refine .same ?_ rfl
          rw [IsFree, idle]
          rintro _ ⟨⟩
  | load stop free | meet free | skip id on free | keep on free => exact .same free rfl

end World

namespace Scene

variable {a b : Scene} {s s' : Nat} {deed : Deed} {first : ContextId} {allowed : Scene → Nat → Deed → Prop} {act : Act}
  {w : World} {id : ContextId}

theorem context_withSkips (known : id < a.world.debugger.contexts.size) (on : Bool) (skips : List Skip)
    (other : ContextId) : (a.withSkips s id on skips).world.debugger.context other =
      if other = id then { a.world.debugger.context id with skipped := on } else a.world.debugger.context other :=
  a.world.debugger.context_updateContext id other (fun context => { context with skipped := on }) known

theorem skips_withSkips_self (a : Scene) (s : Nat) (id : ContextId) (on : Bool) (skips : List Skip) :
    (a.withSkips s id on skips).skips s = skips := Function.update_self ..

theorem skips_withSkips_ne (a : Scene) {s s' : Nat} (ne : s' ≠ s) (id : ContextId) (on : Bool) (skips : List Skip) :
    (a.withSkips s id on skips).skips s' = a.skips s' := Function.update_of_ne ne ..

structure Nested (a : Scene) (s : Nat) : Prop where
  outer : ∀ task ∈ (a.world.tasks s).tail, task.stage.inFront
  ordered : (a.skips s).Pairwise fun inner outer => outer.depth ≤ inner.depth
  bounded : ∀ skip ∈ a.skips s, skip.depth ≤ (a.world.tasks s).length
  own : ∀ skip ∈ a.skips s, skip.context < a.world.debugger.contexts.size ∧
    a.world.debugger.host.boundTo? s = some (a.world.debugger.context skip.context).thread
  closed : ¬ a.IsFree s → a.IsClosed s
  heeds : ∀ upper task lower, a.world.tasks s = upper ++ task :: lower →
    task.stage.callback?.isSome ∨ upper = [] ∧ (a.pursuits s).isSome →
    Skip.unwind task.context (lower.length + 1) (a.world.debugger.context task.context).skipped (a.skips s) = false

namespace Nested

theorem below (h : a.Nested s) (closed : a.IsClosed s) : ∀ skip ∈ a.skips s, skip.depth < (a.world.tasks s).length := by
  have ordered := h.ordered
  rw [IsClosed] at closed
  cases skips : a.skips s with
  | nil => simp
  | cons inner outer =>
      rw [skips] at closed ordered
      have lower := closed inner rfl
      intro skip member
      rcases List.mem_cons.mp member with rfl | member
      · exact lower
      · exact Nat.lt_of_le_of_lt ((List.pairwise_cons.mp ordered).1 skip member) lower

theorem unwind_head (h : a.Nested s) (closed : a.IsClosed s) {task : Task} {rest : List Task}
    (tasks : a.world.tasks s = task :: rest) (id : ContextId) (skipped : Bool) :
    Skip.unwind id (rest.length + 1) skipped (a.skips s) = skipped := by
  have below := h.below closed
  rw [tasks, List.length_cons] at below
  exact Skip.unwind_eq_self below skipped

theorem not_free (held : ∀ task ∈ (a.world.tasks s).head?, task.stage.inFront = false) {task : Task} {rest : List Task}
    (tasks : a.world.tasks s = task :: rest) : ¬ a.IsFree s := by
  rintro ⟨-, free⟩
  have front := free task (tasks ▸ rfl)
  rw [held task (tasks ▸ rfl)] at front
  cases front

theorem heeded (h : a.Nested s) {pursuit : Pursuit} (pursues : a.pursuits s = some pursuit) {task : Task}
    {rest : List Task} (tasks : a.world.tasks s = task :: rest) :
    (a.world.debugger.context task.context).skipped = false := by
  have closed : a.IsClosed s := by
    refine h.closed fun free => ?_
    have none := free.1
    rw [pursues] at none
    cases none
  have heeds := h.heeds [] task rest tasks (.inr ⟨rfl, by rw [pursues]; rfl⟩)
  rwa [h.unwind_head closed tasks] at heeds

theorem of_others (h : a.Nested s) (tasks : b.world.tasks s = a.world.tasks s) (pursuits : b.pursuits s = a.pursuits s)
    (skips : b.skips s = a.skips s) (lodges : a.world.debugger.Lodges b.world.debugger)
    (bound : ∀ {thread}, a.world.debugger.host.boundTo? s = some thread →
      b.world.debugger.host.boundTo? s = some thread)
    (skipped : ∀ task ∈ a.world.tasks s, task.stage.holds →
      (b.world.debugger.context task.context).skipped = (a.world.debugger.context task.context).skipped)
    (searches : ∀ {pursuit}, a.pursuits s = some pursuit → ∀ task ∈ (a.world.tasks s).head?, task.stage.holds) :
    b.Nested s := by
  have free : b.IsFree s ↔ a.IsFree s := by rw [IsFree, IsFree, World.IsFree, World.IsFree, tasks, pursuits]
  have closes : b.IsClosed s ↔ a.IsClosed s := by rw [IsClosed, IsClosed, tasks, skips]
  refine ⟨tasks ▸ h.outer, skips ▸ h.ordered, by rw [skips, tasks]; exact h.bounded, fun skip member => ?_,
    fun free' => closes.mpr (h.closed (mt free.mpr free')), fun upper task lower split goes => ?_⟩
  · obtain ⟨known, own⟩ := h.own skip (skips ▸ member)
    exact ⟨Nat.lt_of_lt_of_le known lodges.size, by rw [lodges.thread _ known]; exact bound own⟩
  · rw [tasks] at split
    rw [pursuits] at goes
    have holds : task.stage.holds := by
      rcases goes with called | ⟨rfl, pursues⟩
      · exact Stage.holds_of_callback? called
      · obtain ⟨pursuit, pursues⟩ := Option.isSome_iff_exists.mp pursues
        exact searches pursues task (by rw [split]; rfl)
    rw [skips, skipped task (by rw [split]; simp) holds]
    exact h.heeds upper task lower split goes

/-! ## Steps without a search -/

theorem closed_of_closing (h : a.Nested s) (closes : act.closes → a.IsClosed s) {task : Task} {rest : List Task}
    (before : a.world.tasks s = task :: rest) (closing : task.stage.inFront → act.closes) : a.IsClosed s := by
  cases front : task.stage.inFront with
  | true => exact closes (closing front)
  | false =>
      refine h.closed (not_free (fun head is => ?_) before)
      rw [before] at is
      cases is
      exact front

section

variable (h : a.Nested s) (quiet : (a.pursuits s).isNone) (closes : act.closes → a.IsClosed s)
  (apart : act.isSkip = false) (acts : a.world.Acts s act w) (lodged : a.world.Lodged)

include h closes acts lodged in
theorem own_act : ∀ skip ∈ a.skips s, skip.context < w.debugger.contexts.size ∧
    w.debugger.host.boundTo? s = some (w.debugger.context skip.context).thread := by
  intro skip member
  obtain ⟨known, own⟩ := h.own skip member
  refine ⟨Nat.lt_of_lt_of_le known acts.lodges.size, ?_⟩
  rw [acts.lodges.thread _ known]
  refine acts.bound lodged.own own (.inr ?_)
  rintro rfl
  -- A thread that is over has left its sections.
  have lower := h.below (closes rfl) skip member
  cases acts with
  | move step =>
      cases step with
      | exit idle bound =>
          rw [idle] at lower
          exact absurd lower (Nat.not_lt_zero _)

include apart acts lodged in
theorem skipped_act {task : Task} (member : task ∈ a.world.tasks s) (holds : task.stage.holds) :
    (w.debugger.context task.context).skipped = (a.world.debugger.context task.context).skipped :=
  acts.skipped apart (lodged.home s task member (Stage.not_isInspecting_of_holds holds)).1

include h apart acts lodged in
theorem heeds_act {upper lower : List Task} {task : Task} (split : a.world.tasks s = upper ++ task :: lower)
    (called : task.stage.callback?.isSome) :
    Skip.unwind task.context (lower.length + 1) (w.debugger.context task.context).skipped (a.skips s) = false := by
  rw [skipped_act apart acts lodged (by rw [split]; simp) (Stage.holds_of_callback? called)]
  exact h.heeds upper task lower split (.inl called)

include quiet in
theorem called_of_goes {upper : List Task} {task : Task}
    (goes : task.stage.callback?.isSome ∨ upper = [] ∧ (a.pursuits s).isSome) : task.stage.callback?.isSome := by
  refine goes.resolve_right fun searches => ?_
  rw [Option.isNone_iff_eq_none.mp quiet] at searches
  cases searches.2

include h quiet closes apart acts lodged

theorem act_same (free : a.world.IsFree s) (tasks : w.tasks s = a.world.tasks s) : Nested { a with world := w } s := by
  have free' : w.IsFree s := by
    rw [World.IsFree, tasks]
    exact free
  exact ⟨tasks ▸ h.outer, h.ordered, by rw [tasks]; exact h.bounded, h.own_act closes acts lodged,
    fun held => absurd ⟨quiet, free'⟩ held,
    fun upper task lower split goes => h.heeds_act apart acts lodged (tasks ▸ split) (called_of_goes quiet goes)⟩

theorem act_pushed {task : Task} (free : a.world.IsFree s) (tasks : w.tasks s = task :: a.world.tasks s)
    (uncalled : task.stage.callback? = none) : Nested { a with world := w } s := by
  refine ⟨?_, h.ordered, fun skip member => ?_, h.own_act closes acts lodged, fun _ skip member => ?_,
    fun upper task lower split goes => ?_⟩
  · rw [tasks, List.tail_cons]
    intro task member
    cases old : a.world.tasks s with
    | nil =>
        rw [old] at member
        cases member
    | cons head rest =>
        rw [old] at member
        rcases List.mem_cons.mp member with rfl | member
        · exact free task (old ▸ rfl)
        · exact h.outer task (old ▸ member)
  · rw [tasks, List.length_cons]
    exact Nat.le_succ_of_le (h.bounded skip member)
  · rw [tasks, List.length_cons]
    exact Nat.lt_succ_of_le (h.bounded skip (List.mem_of_mem_head? member))
  · have called := called_of_goes quiet goes
    rw [tasks] at split
    cases upper with
    | nil =>
        cases split
        rw [uncalled] at called
        cases called
    | cons head upper => exact h.heeds_act apart acts lodged (List.cons.inj split).2 called

theorem act_popped {task : Task} {rest : List Task} (before : a.world.tasks s = task :: rest) (tasks : w.tasks s = rest)
    (closing : task.stage.inFront → act.closes) : Nested { a with world := w } s := by
  have closed := h.closed_of_closing closes before closing
  have free : w.IsFree s := by
    rw [World.IsFree, tasks]
    exact fun outer member => h.outer outer (before ▸ List.mem_of_mem_head? member)
  refine ⟨?_, h.ordered, fun skip member => ?_, h.own_act closes acts lodged,
    fun held => absurd ⟨quiet, free⟩ held, fun upper task' lower split goes => ?_⟩
  · rw [tasks]
    exact fun outer member => h.outer outer (before ▸ List.mem_of_mem_tail member)
  · have lower := h.below closed skip member
    rw [before, List.length_cons] at lower
    rw [tasks]
    exact Nat.le_of_lt_succ lower
  · have split' : a.world.tasks s = (task :: upper) ++ task' :: lower :=
    before.trans (congrArg _ (tasks.symm.trans split))
    exact h.heeds_act apart acts lodged split' (called_of_goes quiet goes)

theorem act_moved {task task' : Task} {rest : List Task} (before : a.world.tasks s = task :: rest)
    (tasks : w.tasks s = task' :: rest) (closing : task.stage.inFront → act.closes)
    (context : task'.context = task.context)
    (calls : task'.stage.callback?.isSome → task.stage.holds ∧
      (task.stage.callback?.isSome ∨ (a.world.debugger.context task.context).skipped = false)) :
    Nested { a with world := w } s := by
  have closed := h.closed_of_closing closes before closing
  have length : (w.tasks s).length = (a.world.tasks s).length := by
    rw [tasks, before, List.length_cons, List.length_cons]
  refine ⟨?_, h.ordered, by rw [length]; exact h.bounded, h.own_act closes acts lodged,
    fun _ => by rw [IsClosed, length]; exact closed, fun upper other lower split goes => ?_⟩
  · rw [tasks]
    exact fun outer member => h.outer outer (before ▸ member)
  · have called := called_of_goes quiet goes
    rw [tasks] at split
    cases upper with
    | nil =>
        cases split
        obtain ⟨holds, was⟩ := calls called
        rw [h.unwind_head closed before, context, skipped_act apart acts lodged (World.mem_innermost before) holds]
        refine was.elim (fun was => ?_) id
        have heeds := h.heeds [] task rest before (.inl was)
        rwa [h.unwind_head closed before] at heeds
    | cons head upper =>
        have split : a.world.tasks s = (task :: upper) ++ other :: lower :=
          before.trans (congrArg _ (List.cons.inj split).2)
        exact h.heeds_act apart acts lodged split called

theorem of_act : Nested { a with world := w } s := by
  cases acts.stacks with
  | same free tasks => exact h.act_same quiet closes apart acts lodged free tasks
  | pushed free tasks uncalled => exact h.act_pushed quiet closes apart acts lodged free tasks uncalled
  | popped before tasks closing => exact h.act_popped quiet closes apart acts lodged before tasks closing
  | moved before tasks closing context calls =>
      exact h.act_moved quiet closes apart acts lodged before tasks closing context calls

end

/-! ## Searches -/

section

variable {d : Debugger} {task : Task} {rest : List Task} (h : a.Nested s) (lodged : a.world.Lodged)
  (tasks : a.world.tasks s = task :: rest) (holds : task.stage.holds)
  (touches : a.world.debugger.Touches s task.context d)

include lodged touches in
theorem skipped_touches {other : Task} (member : other ∈ a.world.tasks s) (holds : other.stage.holds) :
    (d.context other.context).skipped = (a.world.debugger.context other.context).skipped :=
  congrArg (·.2.2.2.2.1) (touches.traits _ (lodged.home s other member (Stage.not_isInspecting_of_holds holds)).1)

include h touches in
theorem own_touches : ∀ skip ∈ a.skips s, skip.context < d.contexts.size ∧
    d.host.boundTo? s = some (d.context skip.context).thread := by
  intro skip member
  obtain ⟨known, own⟩ := h.own skip member
  refine ⟨Nat.lt_of_lt_of_le known touches.size, ?_⟩
  rw [touches.lodges.thread _ known]
  exact touches.grows.bound own

include h lodged tasks holds touches

theorem of_pursuing (pursuit : Pursuit) (closed : a.IsClosed s)
    (heeded : (a.world.debugger.context task.context).skipped = false) :
    (a.withPursuit (a.world.become d) s (some pursuit)).Nested s := by
  refine ⟨h.outer, h.ordered, h.bounded, h.own_touches touches, fun _ => closed, fun upper other lower split goes => ?_⟩
  change a.world.tasks s = _ at split
  change Skip.unwind _ _ (d.context other.context).skipped (a.skips s) = false
  rcases goes with called | ⟨rfl, -⟩
  · rw [skipped_touches lodged touches (by rw [split]; simp) (Stage.holds_of_callback? called)]
    exact h.heeds upper other lower split (.inl called)
  · rw [tasks] at split
    cases split
    rw [h.unwind_head closed tasks, skipped_touches lodged touches (World.mem_innermost tasks) holds]
    exact heeded

theorem of_last (outcome : Outcome) (closed : a.IsClosed s)
    (heeded : (a.world.debugger.context task.context).skipped = false) :
    (a.withPursuit (a.world.proceed s task rest (outcome, d)) s none).Nested s := by
  have tasks' : (a.world.proceed s task rest (outcome, d)).tasks s = _ := World.tasks_proceed task rest (outcome, d)
  have length : ((a.world.proceed s task rest (outcome, d)).tasks s).length = (a.world.tasks s).length := by
    rw [tasks', tasks, List.length_cons, List.length_cons]
  refine ⟨?_, h.ordered, fun skip member => length ▸ h.bounded skip member, h.own_touches touches,
    fun _ skip member => length ▸ closed skip member, fun upper other lower split goes => ?_⟩
  · change ∀ outer ∈ ((a.world.proceed s task rest (outcome, d)).tasks s).tail, _
    rw [tasks']
    exact fun outer member => h.outer outer (tasks ▸ member)
  · have called : other.stage.callback?.isSome := by
      refine goes.resolve_right fun searches => ?_
      rw [pursuits_withPursuit_self] at searches
      cases searches.2
    replace split := tasks'.symm.trans split
    change Skip.unwind _ _ (d.context other.context).skipped (a.skips s) = false
    cases upper with
    | nil =>
        cases split
        rw [h.unwind_head closed tasks, skipped_touches lodged touches (World.mem_innermost tasks) holds]
        exact heeded
    | cons head upper =>
        have split' : a.world.tasks s = (task :: upper) ++ other :: lower :=
          tasks.trans (congrArg _ (List.cons.inj split).2)
        rw [skipped_touches lodged touches (by rw [split']; simp) (Stage.holds_of_callback? called)]
        exact h.heeds _ other lower split' (.inl called)

end

theorem closed_of_pursues (h : a.Nested s) {pursuit : Pursuit} (pursues : a.pursuits s = some pursuit) :
    a.IsClosed s := by
  refine h.closed fun free => ?_
  have none := free.1
  rw [pursues] at none
  cases none

theorem of_begin (h : a.Nested s) (lodged : a.world.Lodged) {move : Move} {begun : Pursuit × Debugger}
    (closed : move = .answer → a.IsClosed s) (begins : a.world.pursuit? s move = some begun) :
    (a.withPursuit (a.world.become begun.2) s (some begun.1)).Nested s := by
  obtain ⟨task, rest, is⟩ := World.pursues_of_pursuit? begins
  have tasks := is.tasks
  have holds := is.holds
  have touches := is.forwards.touches
  cases is with
  | dispatch _ stage begins =>
      have closed : a.IsClosed s := by
        refine h.closed (not_free (fun head member => ?_) tasks)
        rw [tasks] at member
        cases member
        rw [stage]
        rfl
      exact h.of_pursuing lodged tasks holds touches begun.1 closed (Debugger.quest_of_pursuit? begins).1
  | answer _ stage =>
      have heeds := h.heeds [] task rest tasks (.inl (by rw [stage]; rfl))
      rw [h.unwind_head (closed rfl) tasks] at heeds
      exact h.of_pursuing lodged tasks holds touches _ (closed rfl) heeds

/-! ## Sections -/

theorem of_withSkips (h : a.Nested s) (free : a.IsFree s) (known : id < a.world.debugger.contexts.size) {on : Bool}
    {skips : List Skip} (ordered : skips.Pairwise fun inner outer => outer.depth ≤ inner.depth)
    (bounded : ∀ skip ∈ skips, skip.depth ≤ (a.world.tasks s).length)
    (own : ∀ skip ∈ skips, skip.context < a.world.debugger.contexts.size ∧
      a.world.debugger.host.boundTo? s = some (a.world.debugger.context skip.context).thread)
    (unwinds : ∀ other height, height ≤ (a.world.tasks s).length →
      Skip.unwind other height (if other = id then on else (a.world.debugger.context other).skipped) skips =
        Skip.unwind other height (a.world.debugger.context other).skipped (a.skips s)) :
    (a.withSkips s id on skips).Nested s := by
  have context : ∀ other, (a.withSkips s id on skips).world.debugger.context other = _ :=
    context_withSkips known on skips
  have size : (a.withSkips s id on skips).world.debugger.contexts.size = a.world.debugger.contexts.size :=
    a.world.debugger.size_updateContext id _
  have thread (other : ContextId) : ((a.withSkips s id on skips).world.debugger.context other).thread =
      (a.world.debugger.context other).thread := by
    rw [context]
    split
    · next same => rw [same]
    · rfl
  have skipped (other : ContextId) : ((a.withSkips s id on skips).world.debugger.context other).skipped =
      if other = id then on else (a.world.debugger.context other).skipped := by
    rw [context]
    split <;> rfl
  have same := a.skips_withSkips_self s id on skips
  refine ⟨h.outer, by rw [same]; exact ordered, by rw [same]; exact bounded, fun skip member => ?_,
    fun held => absurd free held, fun upper task lower split goes => ?_⟩
  · rw [same] at member
    rw [size, thread]
    exact own skip member
  · have inside : lower.length + 1 ≤ (a.world.tasks s).length := by
      rw [show a.world.tasks s = upper ++ task :: lower from split, List.length_append, List.length_cons]
      exact Nat.le_add_left _ _
    rw [same, skipped, unwinds _ _ inside]
    exact h.heeds upper task lower split goes

theorem of_skip (h : a.Nested s) (free : a.IsFree s) (known : id < a.world.debugger.contexts.size)
    (bound : a.world.debugger.host.boundTo? s = some (a.world.debugger.context id).thread) :
    (a.withSkips s id true
      (⟨id, (a.world.debugger.context id).skipped, (a.world.tasks s).length⟩ :: a.skips s)).Nested s := by
  refine h.of_withSkips free known (List.pairwise_cons.mpr ⟨h.bounded, h.ordered⟩)
    (List.forall_mem_cons.mpr ⟨Nat.le_refl _, h.bounded⟩) (List.forall_mem_cons.mpr ⟨⟨known, bound⟩, h.own⟩)
    fun other height inside => ?_
  rw [Skip.unwind, List.foldl_cons, Skip.unwind]
  congr 1
  by_cases same : other = id
  · rw [if_pos ⟨inside, same.symm⟩, same]
  · rw [if_neg fun is => same is.2.symm, if_neg same]

theorem of_unskip (h : a.Nested s) (free : a.IsFree s) {skip : Skip} {outer : List Skip}
    (skips : a.skips s = skip :: outer) (depth : skip.depth = (a.world.tasks s).length) :
    (a.withSkips s skip.context skip.before outer).Nested s := by
  obtain ⟨ordered, bounded, own⟩ := And.intro h.ordered (And.intro h.bounded h.own)
  rw [skips] at ordered bounded own
  refine h.of_withSkips free (own skip List.mem_cons_self).1 (List.pairwise_cons.mp ordered).2
    (List.forall_mem_cons.mp bounded).2 (List.forall_mem_cons.mp own).2 fun other height inside => ?_
  rw [skips, Skip.unwind, Skip.unwind, List.foldl_cons]
  congr 1
  by_cases same : other = skip.context
  · rw [if_pos same, if_pos ⟨depth ▸ inside, same.symm⟩]
  · rw [if_neg same, if_neg fun is => same is.2.symm]

/-! ## Runs -/

theorem apart_of_bound (lodged : a.world.Lodged) (ne : s' ≠ s)
    (bound : a.world.debugger.host.boundTo? s = some (a.world.debugger.context id).thread) {task : Task}
    (member : task ∈ a.world.tasks s') (holds : task.stage.holds) : task.context ≠ id := by
  rintro rfl
  have event := Stage.not_isInspecting_of_holds holds
  have bound' := lodged.bound s' task member event
  rw [← (lodged.home s' task member event).2] at bound'
  exact ne (lodged.own.injective bound' bound)

theorem step (h : ∀ s, a.Nested s) (sound : a.Sound first) (step : a.Step s deed b) (s' : Nat) : b.Nested s' := by
  have lodged := sound.heard.lodged
  have searches {pursuit : Pursuit} (pursues : a.pursuits s' = some pursuit) := (sound.searches pursues).holds
  by_cases here : s' = s
  · subst here
    cases step with
    | act quiet apart unsought closed acts => exact (h s').of_act quiet closed apart acts lodged
    | begin quiet closed begins => exact (h s').of_begin lodged closed begins
    | @next pursuit task rest phase d pursues tasks steps =>
        have is := Quest.Steps.of_step steps
        exact (h s').of_pursuing lodged tasks (sound.holds pursues tasks) is.touches _
          ((h s').closed_of_pursues pursues) ((h s').heeded pursues tasks)
    | @last pursuit task rest outcome d pursues tasks steps =>
        have is := Quest.Steps.of_step steps
        exact (h s').of_last lodged tasks (sound.holds pursues tasks) is.touches outcome
          ((h s').closed_of_pursues pursues) ((h s').heeded pursues tasks)
    | skip free bound known own => exact (h s').of_skip free known (own ▸ bound)
    | unskip free skips depth => exact (h s').of_unskip free skips depth
  · have others {w : World} {pursuit : Option Pursuit} {task : Task} {rest : List Task}
        (forwards : a.world.Forwards s task rest w) : (a.withPursuit w s pursuit).Nested s' := by
      refine (h s').of_others (forwards.tasks_ne here) (pursuits_withPursuit_ne _ _ here _) rfl
        forwards.touches.lodges forwards.touches.grows.bound (fun task member holds => ?_) searches
      have known := (lodged.home s' task member (Stage.not_isInspecting_of_holds holds)).1
      exact congrArg (·.2.2.2.2.1) (forwards.touches.traits _ known)
    cases step with
    | act quiet apart unsought closed acts =>
        refine (h s').of_others (acts.tasks_ne here) rfl rfl acts.lodges
          (fun bound => acts.bound lodged.own bound (.inl here))
          (fun task member holds => ?_) searches
        exact acts.skipped apart (lodged.home s' task member (Stage.not_isInspecting_of_holds holds)).1
    | begin quiet closed begins =>
        obtain ⟨task, rest, is⟩ := World.pursues_of_pursuit? begins
        exact others is.forwards
    | @next pursuit task rest phase d pursues tasks steps =>
        have is := Quest.Steps.of_step steps
        exact others (.goes is.touches : a.world.Forwards s task rest _)
    | @last pursuit task rest outcome d pursues tasks steps =>
        have is := Quest.Steps.of_step steps
        exact others (.ends is.touches is.about)
    | @skip id thread free bound known own =>
        have acts : a.world.Acts s _ _ := .skip id true free.2
        refine (h s').of_others rfl rfl (skips_withSkips_ne a here ..) acts.lodges (fun bound => bound)
          (fun task member holds => ?_) searches
        rw [context_withSkips known, if_neg (apart_of_bound lodged here (own ▸ bound) member holds)]
    | @unskip skip outer free skips depth =>
        have acts : a.world.Acts s _ _ := .skip skip.context skip.before free.2
        obtain ⟨known, bound⟩ := (h s).own skip (skips ▸ List.mem_cons_self)
        refine (h s').of_others rfl rfl (skips_withSkips_ne a here ..) acts.lodges (fun bound => bound)
          (fun task member holds => ?_) searches
        rw [context_withSkips known, if_neg (apart_of_bound lodged here bound member holds)]

end Nested

theorem Course.nested (course : Course allowed a b) (sound : a.Sound first) (h : ∀ s, a.Nested s) (s : Nat) :
    b.Nested s := by
  induction course generalizing s with
  | refl => exact h s
  | step course next ok ih => exact Nested.step ih (course.sound sound) next s

theorem Nested.of_idle {w : World} (idle : ∀ s, w.tasks s = []) (s : Nat) : (ofWorld w).Nested s := by
  have none : (ofWorld w).world.tasks s = [] := idle s
  have free : (ofWorld w).IsFree s := by
    refine ⟨rfl, ?_⟩
    rw [World.IsFree, none]
    rintro _ ⟨⟩
  refine ⟨by simp [none], .nil, by simp [ofWorld], by simp [ofWorld], fun held => absurd free held, ?_⟩
  intro upper task lower split
  rw [none] at split
  cases upper <;> cases split

end Scene

end EventDebugger
