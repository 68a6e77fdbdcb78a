import EventDebugger.Proofs.Renewal.Dispatch
import EventDebugger.Proofs.Renewal.Tables

/-!
# Requests up to numbering

A request changes a debugger as it changes the one that it renames, once contexts and breakpoints are addressed
by their other numbers. Both requests succeed, or both fail for the same reason.

* `Renames.arrive`: the arrival of an event.
* `Renames.lastLive?`: the context that halted last.
* `Renames.command`: commands of a context.
* `Renames.serve`: all requests of the front-end.
-/

namespace EventDebugger

inductive Agrees {α β : Type} (R : α → β → Prop) : Except Error α → Except Error β → Prop where
  | ok {x : α} {y : β} (related : R x y) : Agrees R (.ok x) (.ok y)
  | error (error : Error) : Agrees R (.error error) (.error error)

namespace Agrees

variable {α β γ δ : Type} {R : α → β → Prop} {S : γ → δ → Prop} {x : Except Error α} {y : Except Error β}

theorem bind (h : Agrees R x y) {f : α → Except Error γ} {g : β → Except Error δ}
    (next : ∀ {x y}, R x y → Agrees S (f x) (g y)) : Agrees S (x >>= f) (y >>= g) := by
  cases h with
  | ok related => exact next related
  | error error => exact .error error

theorem cases (h : Agrees R x y) :
    (∃ error, x = .error error ∧ y = .error error) ∨ ∃ a b, x = .ok a ∧ y = .ok b ∧ R a b := by
  cases h with
  | ok related => exact .inr ⟨_, _, rfl, rfl, related⟩
  | error error => exact .inl ⟨error, rfl, rfl⟩

theorem imp {S : α → β → Prop} (h : Agrees R x y) (imp : ∀ {x y}, R x y → S x y) : Agrees S x y := by
  cases h with
  | ok related => exact .ok (imp related)
  | error error => exact .error error

end Agrees

structure Context.UnnumberedCommand (f : Context → Except Error Context) : Prop where
  number : ∀ context number, f (context.renumber number) = (f context).map (·.renumber number)
  thread : ∀ {context context'}, f context = .ok context' → context'.thread = context.thread
  dead : ∀ {context context'}, f context = .ok context' → context'.dead = context.dead

namespace Context.UnnumberedCommand

theorem ok {f : Context → Context} (unnumbered : Unnumbered f) : UnnumberedCommand fun context => .ok (f context) where
  number context number := congrArg _ (unnumbered.number context number)
  thread h := by
    cases h
    exact unnumbered.thread _
  dead h := by
    cases h
    exact unnumbered.dead _

theorem step (n : Int) (force : Bool) : UnnumberedCommand (·.step n force) := by
  refine ⟨fun context number => ?_, fun {context context'} h => ?_, fun {context context'} h => ?_⟩
  · simp only [Context.step]
    cases checkSteps n <;> rfl
  all_goals
    obtain ⟨_, _, stepped⟩ := except_bind_eq_ok h
    cases stepped
    rfl

theorem interrupt : UnnumberedCommand Context.interrupt := step 1 false

theorem stepOver (n : Int) (frame : Option Int) (force : Bool) : UnnumberedCommand (·.stepOver n frame force) := by
  have shape (context : Context) :
      (∃ error, ∀ number, (context.renumber number).stepOver n frame force = .error error) ∨
      ∃ line target, ∀ number, (context.renumber number).stepOver n frame force = .ok { context with
        number, stopLine := line, stepped := false, targetDepth := some target, forced := force } := by
    have stack (number : Nat) : (context.renumber number).stack = context.stack := rfl
    have depth (number : Nat) : (context.renumber number).depth = context.depth := rfl
    simp only [Context.stepOver, stack, depth]
    cases checkSteps n with
    | error error => exact .inl ⟨error, fun _ => rfl⟩
    | ok steps =>
        cases context.stack.isEmpty with
        | true => exact .inl ⟨_, fun _ => rfl⟩
        | false =>
            cases frame with
            | none => exact .inr ⟨_, _, fun _ => rfl⟩
            | some index =>
                cases checked : checkFrame index context.depth with
                | error error => exact .inl ⟨error, fun _ => by simp only [checked]; rfl⟩
                | ok i => exact .inr ⟨_, _, fun _ => by simp only [checked]; rfl⟩
  have own (context : Context) : context.renumber context.number = context := rfl
  refine ⟨fun context number => ?_, fun {context context'} h => ?_, fun {context context'} h => ?_⟩
  all_goals rcases shape context with ⟨error, fails⟩ | ⟨line, target, changes⟩
  · rw [fails, ← own context, fails]
    rfl
  · rw [changes, ← own context, changes]
    rfl
  · cases (fails context.number).symm.trans h
  · cases (changes context.number).symm.trans h
    rfl
  · cases (fails context.number).symm.trans h
  · cases (changes context.number).symm.trans h
    rfl

theorem stopFrame (index : Int) : UnnumberedCommand (·.stopFrame index) := by
  refine ⟨fun context number => ?_, fun {context context'} h => ?_, fun {context context'} h => ?_⟩
  · have depth : (context.renumber number).depth = context.depth := rfl
    simp only [Context.stopFrame, depth]
    cases checkFrame index context.depth <;> rfl
  all_goals
    obtain ⟨_, _, stopped⟩ := except_bind_eq_ok h
    cases stopped
    rfl

end Context.UnnumberedCommand

def Renaming.before (ρ : Renaming) (before : ContextId × Bool × Bool) : ContextId × Bool × Bool :=
  (ρ.address before.1, before.2)

namespace Renames

variable {ρ : Renaming} {a b : Debugger}

/-! ## Commands of a context -/

theorem command (h : Renames ρ a b) (id : ContextId) {f : Context → Except Error Context}
    (unnumbered : Context.UnnumberedCommand f) :
    Agrees (Renames ρ) (a.command id f) (b.command (ρ.address id) f) := by
  obtain ⟨number, alike⟩ := h.context_alike id
  have commanded := unnumbered.number (a.context id) number
  have own := unnumbered.number (a.context id) (a.context id).number
  simp only [Debugger.command, Debugger.inspect, h.isStarted]
  cases a.isStarted with
  | false => exact .error _
  | true =>
      rw [if_pos rfl, if_pos rfl, alike, commanded]
      cases changed : f (a.context id) with
      | error error => exact .error error
      | ok context =>
          have same : context.number = (a.context id).number := by
            have renumbered := Except.ok.inj (changed.symm.trans (own.trans (congrArg _ changed)))
            rw [renumbered]
            rfl
          refine .ok (h.updateContexts id ?_ same (unnumbered.thread changed) (unnumbered.dead changed))
          rw [alike]
          rfl

/-! ## The contexts of threads -/

def Placed (ρ : Renaming) (x y : ContextId × Debugger) : Prop := y.1 = ρ.address x.1 ∧ Renames ρ x.2 y.2

def Gathered (ρ : Renaming) (x y : List ContextId × Debugger) : Prop :=
  y.1 = x.1.map ρ.address ∧ Renames ρ x.2 y.2

theorem activeSession (h : Renames ρ a b) :
    Agrees (fun x y => a.session = some x ∧ b.session = some y) a.activeSession b.activeSession := by
  rcases h.sessions with ⟨none, none'⟩ | ⟨x, y, active, active', alike⟩
  · simp only [Debugger.activeSession, none, none']
    exact .error _
  · simp only [Debugger.activeSession, active, active']
    exact .ok ⟨rfl, rfl⟩

theorem threadContext (h : Renames ρ a b) (thread : Thread) :
    Agrees (Placed ρ) (a.threadContext thread) (b.threadContext thread) := by
  refine h.activeSession.bind fun {x y} active => ?_
  rw [h.host]
  split
  · next alive =>
      exact .ok (h.track active.1 active.2 (ρ.heeds_of_isAlive alive) (Host.counted_of_isAlive h.listed alive))
  · exact .error _

theorem currentContext (h : Renames ρ a b) (system : Nat) :
    Agrees (fun x y => y = ρ.address x) (a.currentContext system).1 (b.currentContext system).1 ∧
      Renames ρ (a.currentContext system).2 (b.currentContext system).2 := by
  obtain ⟨same, met⟩ := h.currentThread system
  simp only [Debugger.currentContext, same]
  rcases (met.threadContext (a.currentThread system).1).cases with
    ⟨error, refused, refused'⟩ | ⟨x, y, found, found', placed, tracked⟩
  · rw [refused, refused']
    exact ⟨.error error, met⟩
  · rw [found, found']
    exact ⟨.ok placed, tracked⟩

theorem currentContext_cases (h : Renames ρ a b) (system : Nat) :
    (∃ error a' b', a.currentContext system = (.error error, a') ∧ b.currentContext system = (.error error, b') ∧
        Renames ρ a' b') ∨
      ∃ id a' b', a.currentContext system = (.ok id, a') ∧ b.currentContext system = (.ok (ρ.address id), b') ∧
        Renames ρ a' b' := by
  obtain ⟨agrees, current⟩ := h.currentContext system
  rcases agrees.cases with ⟨error, refused, refused'⟩ | ⟨id, id', found, found', rfl⟩
  · exact .inl ⟨error, _, _, Prod.ext refused rfl, Prod.ext refused' rfl, current⟩
  · exact .inr ⟨id, _, _, Prod.ext found rfl, Prod.ext found' rfl, current⟩

theorem liveContexts (h : Renames ρ a b) : Agrees (Gathered ρ) a.liveContexts b.liveContexts :=
  h.activeSession.bind fun active => .ok (h.rebuild active.1 active.2)

theorem heeds_currentThread (h : Renames ρ a b) {system : Nat}
    (registered : ∀ thread ∈ a.host.boundTo? system, thread.id ≤ a.host.threadCount)
    (heeded : ∀ thread ∈ a.host.boundTo? system, ρ.heeds a.host thread) :
    ρ.heeds (a.currentThread system).2.host (a.currentThread system).1 ∧
      (a.currentThread system).1.id ≤ (a.currentThread system).2.host.threadCount := by
  simp only [Debugger.currentThread, Host.currentThread]
  split
  · next thread bound => exact ⟨heeded thread bound, registered thread bound⟩
  · refine ⟨ρ.heeds_of_isAlive ?_, Nat.le_refl _⟩
    rw [Host.isAlive_bind]
    exact Host.isAlive_register_new h.listed _

theorem arrive (h : Renames ρ a b) {system : Nat}
    (registered : ∀ thread ∈ a.host.boundTo? system, thread.id ≤ a.host.threadCount)
    (heeded : ∀ thread ∈ a.host.boundTo? system, ρ.heeds a.host thread) (event : Event) :
    (b.arrive system event).1 = (a.arrive system event).1.map ρ.entry ∧
      Renames ρ (a.arrive system event).2 (b.arrive system event).2 := by
  obtain ⟨same, met⟩ := h.currentThread system
  obtain ⟨heeds, counted⟩ := h.heeds_currentThread registered heeded
  simp only [Debugger.arrive, h.isStarted]
  generalize a.currentThread system = x at same met heeds counted ⊢
  generalize b.currentThread system = y at same met ⊢
  obtain ⟨thread, a'⟩ := x
  obtain ⟨thread', b'⟩ := y
  cases same
  simp only at met heeds counted ⊢
  have noted : Renames ρ { a' with eventCount := a'.eventCount + 1 } { b' with eventCount := b'.eventCount + 1 } :=
    { met with phase := fun lockstep => ⟨congrArg (· + 1) (met.phase lockstep).1, (met.phase lockstep).2⟩ }
  cases a.isStarted with
  | false => exact ⟨rfl, h⟩
  | true =>
      rw [if_pos rfl, if_pos rfl]
      split
      · exact ⟨rfl, noted⟩
      · rcases met.sessions with ⟨ended, ended'⟩ | ⟨x, y, active, active', -⟩
        · simp only [ended, ended'] at noted ⊢
          exact ⟨rfl, noted⟩
        · obtain ⟨placed, tracked⟩ := noted.track active active' heeds counted
          have ignored := tracked.reads (Debugger.track { a' with eventCount := a'.eventCount + 1 } x thread).1
            (·.ignored) fun _ _ => rfl
          simp only [active, active'] at placed tracked ignored ⊢
          rw [placed, ignored]
          split
          · exact ⟨rfl, tracked⟩
          · exact ⟨rfl, tracked⟩

theorem interrupt (h : Renames ρ a b) (system : Nat) : Renames ρ (a.interrupt system).2 (b.interrupt system).2 := by
  rcases h.currentContext_cases system with
    ⟨error, a', b', refused, refused', current⟩ | ⟨id, a', b', found, found', current⟩
  · simp only [Debugger.interrupt, refused, refused']
    exact current
  · simp only [Debugger.interrupt, found, found']
    rcases (current.command id .interrupt).cases with ⟨error, failed, failed'⟩ | ⟨c, d, done, done', commanded⟩
    · rw [failed, failed']
      exact current
    · rw [done, done']
      exact commanded

/-! ## The context that halted last -/

end Renames

namespace Debugger

def lastLive? (d : Debugger) (session : Session) : Option ContextId :=
  (d.lastHalted.bind (d.numbered? session)).filter fun id => d.host.isAlive (d.context id).thread

theorem interruptLast_eq (d : Debugger) : d.interruptLast = d.activeSession >>= fun session =>
    match d.lastLive? session with
    | none => .ok (none, d)
    | some id => d.command id Context.interrupt >>= fun d' => .ok (some id, d') := by
  simp only [interruptLast, lastContext, lastLive?]
  cases d.activeSession with
  | error error => rfl
  | ok session =>
      simp only [bind, Except.bind, pure, Except.pure]
      generalize d.lastHalted.bind (d.numbered? session) = last
      cases last with
      | none => rfl
      | some id =>
          simp only [Option.filter]
          by_cases alive : d.host.isAlive (d.context id).thread
          · rw [if_pos alive, if_pos alive]
          · rw [if_neg alive, if_neg alive]

theorem lastLive?_eq_some {d : Debugger} {session : Session} {id : ContextId}
    (home : ∀ entry ∈ session.table.entries, (d.context entry.2).thread = entry.1)
    (distinct : ∀ entry ∈ session.table.entries, ∀ other ∈ session.table.entries,
      (d.context entry.2).number = (d.context other.2).number → entry.2 = other.2) :
    d.lastLive? session = some id ↔ ∃ thread, (thread, id) ∈ session.table.entries ∧
      d.lastHalted = some (d.context id).number ∧ d.host.isAlive thread := by
  simp only [lastLive?, Option.filter_eq_some_iff, Option.bind_eq_some_iff, numbered?, Option.map_eq_some_iff]
  constructor
  · rintro ⟨⟨number, last, ⟨thread, found⟩, is, same⟩, alive⟩
    cases same
    have member := List.mem_of_find?_eq_some is
    have same : (d.context found).number = number := eq_of_beq (List.find?_some is :)
    refine ⟨thread, member, last.trans (congrArg some same.symm), ?_⟩
    rw [home _ member] at alive
    exact alive
  · rintro ⟨thread, member, last, alive⟩
    refine ⟨⟨_, last, ?_⟩, ?_⟩
    · have found := List.find?_isSome (p := fun entry => (d.context entry.2).number == (d.context id).number) |>.mpr
        ⟨(thread, id), member, beq_self_eq_true _⟩
      obtain ⟨entry, is⟩ := Option.isSome_iff_exists.mp found
      exact ⟨entry, is, distinct _ (List.mem_of_find?_eq_some is) _ member (eq_of_beq (List.find?_some is :))⟩
    · rw [home _ member]
      exact alive

end Debugger

namespace Renames

theorem lastLive? (h : Renames ρ a b) {x y : Session} (active : a.session = some x) (active' : b.session = some y) :
    b.lastLive? y = (a.lastLive? x).map ρ.address := by
  have alike := h.alike active active'
  have home := alike.table.home
  have owner (entry) (member : entry ∈ x.table.entries) : (a.context entry.2).thread = entry.1 :=
    (home entry member).thread
  have distinct (entry) (member : entry ∈ x.table.entries) (other) (member' : other ∈ x.table.entries) :
      (a.context entry.2).number = (a.context other.2).number → entry.2 = other.2 :=
    h.numbered.distinct _ (home entry member).known _ (home other member').known (home entry member).live
      (home other member').live
  have owner' (entry) (member : entry ∈ y.table.entries) : (b.context entry.2).thread = entry.1 := by
    obtain ⟨original, home, rfl⟩ := alike.table.home' entry member
    exact (congrArg (·.thread) (h.contexts _ home.known)).trans home.thread
  have distinct' (entry) (member : entry ∈ y.table.entries) (other) (member' : other ∈ y.table.entries)
      (same : (b.context entry.2).number = (b.context other.2).number) : entry.2 = other.2 := by
    obtain ⟨original, home, rfl⟩ := alike.table.home' entry member
    obtain ⟨original', home', rfl⟩ := alike.table.home' other member'
    simp only [Renaming.entry, h.number home.known, h.number home'.known, Nat.add_right_cancel_iff] at same
    exact congrArg ρ.address (h.numbered.distinct _ home.known _ home'.known home.live home'.live same)
  have halted {entry : Thread × ContextId} (home : Home a.contexts a.host entry) :
      b.lastHalted = some (b.context (ρ.address entry.2)).number ↔ a.lastHalted = some (a.context entry.2).number := by
    rw [h.number home.known]
    exact h.halted _ (h.numbered.positive _ home.known)
  ext id'
  rw [Debugger.lastLive?_eq_some owner' distinct', Option.map_eq_some_iff, h.host]
  simp only [Debugger.lastLive?_eq_some owner distinct]
  constructor
  · rintro ⟨thread, member, last, alive⟩
    obtain ⟨⟨_, id⟩, member', same⟩ := (alike.table.mem_entries_iff (ρ.heeds_of_isAlive alive)).mp member
    cases same
    exact ⟨id, ⟨_, member', (halted (home _ member')).mp last, alive⟩, rfl⟩
  · rintro ⟨id, ⟨thread, member, last, alive⟩, rfl⟩
    refine ⟨thread, (alike.table.mem_entries_iff (ρ.heeds_of_isAlive alive)).mpr ⟨_, member, rfl⟩, ?_, alive⟩
    exact (halted (home _ member)).mpr last

theorem interruptLast (h : Renames ρ a b) :
    Agrees (fun x y => Renames ρ x.2 y.2) a.interruptLast b.interruptLast := by
  rw [Debugger.interruptLast_eq, Debugger.interruptLast_eq]
  refine h.activeSession.bind fun {x y} active => ?_
  rw [h.lastLive? active.1 active.2]
  cases a.lastLive? x with
  | none => exact .ok h
  | some id => exact (h.command id .interrupt).bind fun renames => .ok renames

/-! ## Suspension -/

theorem suspendContext (h : Renames ρ a b) (id : ContextId) :
    Renames ρ (a.suspendContext id) (b.suspendContext (ρ.address id)) := by
  have thread : (b.context (ρ.address id)).thread = (a.context id).thread := h.reads id _ fun _ _ => rfl
  simp only [Debugger.suspendContext, thread, h.host]
  refine h.updateContext id ⟨fun _ _ => ?_, fun _ => ?_, fun _ => ?_⟩
  all_goals cases a.host.status (a.context id).thread <;> rfl

theorem resumeContext (h : Renames ρ a b) (id : ContextId) :
    Renames ρ (a.updateContext id Context.resume) (b.updateContext (ρ.address id) Context.resume) :=
  h.updateContext id ⟨fun _ _ => rfl, fun _ => rfl, fun _ => rfl⟩

theorem suspend (h : Renames ρ a b) (id : ContextId) :
    Agrees (Renames ρ) (a.suspend id) (b.suspend (ρ.address id)) := by
  have suspended : (b.context (ρ.address id)).suspended = (a.context id).suspended := h.reads id _ fun _ _ => rfl
  refine h.activeSession.bind fun _ => ?_
  rw [suspended]
  split
  · exact .error _
  · exact .ok (h.suspendContext id)

theorem resume (h : Renames ρ a b) (id : ContextId) : Agrees (Renames ρ) (a.resume id) (b.resume (ρ.address id)) := by
  have suspended : (b.context (ρ.address id)).suspended = (a.context id).suspended := h.reads id _ fun _ _ => rfl
  have wasRunning : (b.context (ρ.address id)).wasRunning = (a.context id).wasRunning := h.reads id _ fun _ _ => rfl
  refine h.activeSession.bind fun _ => ?_
  simp only [suspended, wasRunning]
  split
  · refine .ok ?_
    split
    · exact (h.resumeContext id).wakeUp
    · exact h.resumeContext id
  · exact .error _

theorem otherContexts (h : Renames ρ a b) (system : Nat) :
    Agrees (Gathered ρ) (a.otherContexts system) (b.otherContexts system) := by
  refine h.activeSession.bind fun {x y} active => ?_
  obtain ⟨same, met⟩ := h.currentThread system
  obtain ⟨gathered, rebuilt⟩ := met.rebuild active.1 active.2
  generalize a.currentThread system = p at same met gathered rebuilt ⊢
  generalize b.currentThread system = q at same met gathered rebuilt ⊢
  obtain ⟨thread, a'⟩ := p
  obtain ⟨thread', b'⟩ := q
  cases same
  simp only at gathered rebuilt ⊢
  generalize a'.rebuild x = p at gathered rebuilt ⊢
  generalize b'.rebuild y = q at gathered rebuilt ⊢
  obtain ⟨ids, a''⟩ := p
  obtain ⟨ids', b''⟩ := q
  cases gathered
  have others (id : ContextId) : (b''.context (ρ.address id)).thread = (a''.context id).thread :=
    rebuilt.reads id _ fun _ _ => rfl
  refine .ok ⟨?_, rebuilt⟩
  simp only [List.filter_map, Function.comp_def, others]

theorem foldl {f g : Debugger → ContextId → Debugger}
    (step : ∀ {a b}, Renames ρ a b → ∀ id, Renames ρ (f a id) (g b (ρ.address id))) (ids : List ContextId)
    (h : Renames ρ a b) : Renames ρ (ids.foldl f a) ((ids.map ρ.address).foldl g b) := by
  induction ids generalizing a b with
  | nil => exact h
  | cons id ids ih => exact ih (step h id)

theorem suspendAll (h : Renames ρ a b) (system : Nat) :
    Agrees (Renames ρ) (a.suspendAll system) (b.suspendAll system) := by
  refine (h.otherContexts system).bind fun {x y} gathered => .ok ?_
  rw [gathered.1]
  exact foldl suspendContext x.1 gathered.2

theorem resumeAll (h : Renames ρ a b) (system : Nat) :
    Agrees (Renames ρ) (a.resumeAll system) (b.resumeAll system) := by
  refine (h.otherContexts system).bind fun {x y} gathered => .ok ?_
  have sleeps (id : ContextId) :
      ((y.2.context (ρ.address id)).suspended && (y.2.context (ρ.address id)).wasRunning) =
        ((x.2.context id).suspended && (x.2.context id).wasRunning) :=
    gathered.2.reads id (fun context => context.suspended && context.wasRunning) fun _ _ => rfl
  have resumed := foldl (f := fun d id => d.updateContext id Context.resume)
    (g := fun d id => d.updateContext id Context.resume) resumeContext x.1 gathered.2
  simp only [gathered.1, List.any_map, Function.comp_def, sleeps]
  split
  · exact resumed.wakeUp
  · exact resumed

/-! ## Breakpoints and settings -/

theorem addBreakpoint (h : Renames ρ a b) (source : String) (target : BreakpointTarget) (guard : Option String) :
    Agrees (fun x y => Renames ρ x.2 y.2) (a.addBreakpoint source target guard)
      (b.addBreakpoint source target guard) := by
  refine h.activeSession.bind fun {x y} active => .ok ?_
  have alike := h.alike active.1 active.2
  have count : b.breakpointCount + 1 = a.breakpointCount + 1 + ρ.breakpoints := by
    rw [h.breakpointCount, Nat.add_right_comm]
  have counted : Renames ρ { a with breakpointCount := a.breakpointCount + 1 }
      { b with breakpointCount := b.breakpointCount + 1 } := { h with breakpointCount := count }
  refine counted.onSession { alike with registry := ?_ }
  simp only [Registry.add, alike.registry, List.map_append, List.map_cons, List.map_nil, Renaming.breakpoint, count]

theorem removeBreakpoint (h : Renames ρ a b) (id : Nat) :
    Agrees (fun x y => Renames ρ x.2 y.2) (a.removeBreakpoint id) (b.removeBreakpoint (id + ρ.breakpoints)) := by
  refine h.activeSession.bind fun {x y} active => .ok ?_
  have alike := h.alike active.1 active.2
  refine h.onSession { alike with registry := ?_ }
  have numbered : ((fun bp : Breakpoint => bp.id == id + ρ.breakpoints) ∘ ρ.breakpoint) = fun bp => bp.id == id := by
    funext bp
    refine Bool.eq_iff_iff.mpr ?_
    simp only [Function.comp_apply, Renaming.breakpoint, beq_iff_eq, Nat.add_right_cancel_iff]
  simp only [Registry.remove, alike.registry, List.eraseP_map, numbered]

theorem setCatchpoint (h : Renames ρ a b) (className : Option String) :
    Agrees (Renames ρ) (a.setCatchpoint className) (b.setCatchpoint className) :=
  h.activeSession.bind fun _ => .ok { h with catchpoint := rfl }

theorem onSettings (h : Renames ρ a b) (f : Settings → Settings) :
    Renames ρ { a with settings := f a.settings } { b with settings := f b.settings } :=
  { h with settings := congrArg f h.settings }

theorem setPostMortem (h : Renames ρ a b) (on : Bool) :
    Agrees (Renames ρ) (a.setPostMortem on) (b.setPostMortem on) :=
  h.activeSession.bind fun _ => .ok (h.onSettings ({ · with postMortem := on }))

theorem setTemporary (h : Renames ρ a b) (id : ContextId) (source : String) (target : BreakpointTarget)
    (guard : Option String) : Agrees (fun x y => Renames ρ x.2 y.2) (a.setTemporary id source target guard)
      (b.setTemporary (ρ.address id) source target guard) := by
  refine (h.command id (.ok (f := fun context => { context with
    temporary := some ⟨0, source, target, guard⟩, temporaryCount := context.temporaryCount + 1 }) ?_)).bind
    fun renames => .ok renames
  exact ⟨fun _ _ => rfl, fun _ => rfl, fun _ => rfl⟩

theorem clearTemporary (h : Renames ρ a b) (id : ContextId) :
    Agrees (fun x y => Renames ρ x.2 y.2) (a.clearTemporary id) (b.clearTemporary (ρ.address id)) := by
  have cleared := h.command id (.ok (f := ({ · with temporary := none })) ⟨fun _ _ => rfl, fun _ => rfl, fun _ => rfl⟩)
  simp only [Debugger.clearTemporary, Debugger.inspect, h.isStarted]
  cases a.isStarted with
  | false => exact .error _
  | true => exact cleared.bind fun renames => .ok renames

/-! ## Activation -/

theorem start (h : Renames ρ a b) : Renames ρ a.start.2 b.start.2 := by
  have counted : Renames ρ { a with startCount := a.startCount + 1 } { b with startCount := b.startCount + 1 } :=
    { h with startCount := congrArg (· + 1) h.startCount }
  rcases h.sessions with ⟨ended, ended'⟩ | ⟨x, y, active, active', -⟩
  · simp only [Debugger.start, ended, ended']
    refine counted.onSession ⟨⟨rfl, ?_, ?_, ?_, ?_⟩, rfl, rfl, rfl⟩
    · intro thread id recent
      cases recent
    · intro thread id recent
      cases recent
    · intro entry member
      cases member
    · intro entry member
      cases member
  · simp only [Debugger.start, active, active'] at counted ⊢
    exact counted

theorem deactivate (h : Renames ρ a b) : Renames ρ a.deactivate b.deactivate :=
  ({ h with session := .none } : Renames ρ { a with session := none } { b with session := none }).wakeUp

theorem stop (h : Renames ρ a b) : Agrees (fun x y => Renames ρ x.2 y.2) a.stop b.stop := by
  have counted : Renames ρ { a with startCount := a.startCount - 1 } { b with startCount := b.startCount - 1 } :=
    { h with startCount := congrArg (· - 1) h.startCount }
  refine h.activeSession.bind fun _ => ?_
  simp only [h.startCount] at counted ⊢
  split
  · exact .ok counted
  · exact .ok counted.deactivate

/-! ## Post-mortems and sections -/

theorem enterPostMortem (h : Renames ρ a b) (system : Nat) :
    Agrees (fun x y => y = ρ.before x) (a.enterPostMortem system).1 (b.enterPostMortem system).1 ∧
      Renames ρ (a.enterPostMortem system).2 (b.enterPostMortem system).2 := by
  rcases h.currentContext_cases system with
    ⟨error, a', b', refused, refused', current⟩ | ⟨id, a', b', found, found', current⟩
  · simp only [Debugger.enterPostMortem, refused, refused']
    exact ⟨.error error, current⟩
  · have tracing : (b'.context (ρ.address id)).tracing = (a'.context id).tracing := current.reads id _ fun _ _ => rfl
    simp only [Debugger.enterPostMortem, found, found', tracing, current.settings]
    rcases (current.suspendAll system).cases with ⟨error, failed, failed'⟩ | ⟨c, d, done, done', suspended⟩
    · rw [failed, failed']
      exact ⟨.error error, current⟩
    · rw [done, done']
      refine ⟨.ok rfl, (suspended.onSettings ({ · with tracing := false })).updateContext id
        (f := ({ · with tracing := false })) ?_⟩
      exact ⟨fun _ _ => rfl, fun _ => rfl, fun _ => rfl⟩

theorem leavePostMortem (h : Renames ρ a b) (system : Nat) (before : ContextId × Bool × Bool) :
    Renames ρ (a.leavePostMortem system before).2 (b.leavePostMortem system (ρ.before before)).2 := by
  have restored := h.onSettings ({ · with tracing := before.2.1 })
  have commanded := restored.command before.1 (.ok (f := ({ · with tracing := before.2.2 }))
    ⟨fun _ _ => rfl, fun _ => rfl, fun _ => rfl⟩)
  simp only [Debugger.leavePostMortem, Renaming.before]
  rcases commanded.cases with ⟨error, failed, failed'⟩ | ⟨c, d, done, done', commanded⟩
  · rw [failed, failed']
    exact restored
  · rw [done, done']
    rcases (commanded.resumeAll system).cases with ⟨error, failed, failed'⟩ | ⟨_, _, done, done', resumed⟩
    · simp only [failed, failed']
      exact commanded
    · simp only [done, done']
      exact resumed

theorem prepareLoad (h : Renames ρ a b) (system : Nat) (stop : Bool) :
    Renames ρ (a.prepareLoad system stop).2 (b.prepareLoad system stop).2 := by
  rcases h.currentContext_cases system with
    ⟨error, a', b', refused, refused', current⟩ | ⟨id, a', b', found, found', current⟩
  · simp only [Debugger.prepareLoad, refused, refused']
    exact current
  · have emptied := current.updateContext id (f := ({ · with stack := [] }))
      ⟨fun _ _ => rfl, fun _ => rfl, fun _ => rfl⟩
    simp only [Debugger.prepareLoad, found, found']
    split
    · rcases (emptied.command id .interrupt).cases with ⟨error, failed, failed'⟩ | ⟨c, d, done, done', commanded⟩
      · rw [failed, failed']
        exact emptied
      · rw [done, done']
        exact commanded
    · exact emptied

end Renames

/-! ## Requests -/

namespace Script.Attempt

variable {ρ : Renaming} {a b : Debugger} {α β γ δ : Type}

def Corresponds (ρ : Renaming) (x : Attempt α) (y : Attempt β) : Prop :=
  ∀ a b, Renames ρ a b → ∀ state, Renames ρ (x (a, state)).2.1 (y (b, state)).2.1

theorem corresponds_of_reads {x : Attempt α} {y : Attempt β} (reads : Within Eq x) (reads' : Within Eq y) :
    Corresponds ρ x y := by
  intro a b h state
  rw [← reads a state, ← reads' b state]
  exact h

theorem Corresponds.andReads {x : Attempt α} {y : Attempt β} (h : Corresponds ρ x y) {f : α → Attempt γ}
    {g : β → Attempt δ} (reads : ∀ a, Within Eq (f a)) (reads' : ∀ b, Within Eq (g b)) :
    Corresponds ρ (x >>= f) (y >>= g) := by
  have settled {α γ : Type} {x : Attempt α} {f : α → Attempt γ} (reads : ∀ a, Within Eq (f a)) (d : Debugger)
      (state : State) : ((x >>= f) (d, state)).2.1 = (x (d, state)).2.1 := by
    change (ExceptT.bindCont f (x (d, state)).1 (x (d, state)).2).2.1 = _
    cases (x (d, state)).1 with
    | ok a => exact (reads a _ _).symm
    | error failure => rfl
  intro a b renames state
  rw [settled reads, settled reads']
  exact h a b renames state

theorem Corresponds.andReturn {x : Attempt α} {y : Attempt β} (h : Corresponds ρ x y) (f : α → γ) (g : β → δ) :
    Corresponds ρ (do return f (← x)) (do return g (← y)) :=
  h.andReads (fun _ => within_pure _) fun _ => within_pure _

theorem corresponds_change {f : Debugger → Except Error (α × Debugger)} {g : Debugger → Except Error (β × Debugger)}
    (agrees : ∀ a b, Renames ρ a b → Agrees (fun x y => Renames ρ x.2 y.2) (f a) (g b)) :
    Corresponds ρ (change f) (change g) := by
  intro a b h state
  rw [debugger_change, debugger_change]
  rcases (agrees a b h).cases with ⟨error, failed, failed'⟩ | ⟨x, y, done, done', renames⟩
  · rw [failed, failed']
    exact h
  · rw [done, done']
    exact renames

theorem corresponds_perform {f g : Debugger → Except Error Debugger}
    (agrees : ∀ a b, Renames ρ a b → Agrees (Renames ρ) (f a) (g b)) :
    Corresponds ρ (perform f) (perform g) := by
  refine corresponds_change (f := fun d => (f d).map fun d => ((), d)) (g := fun d => (g d).map fun d => ((), d)) ?_
  intro a b h
  rcases (agrees a b h).cases with ⟨error, failed, failed'⟩ | ⟨x, y, done, done', renames⟩
  · rw [failed, failed']
    exact .error error
  · rw [done, done']
    exact .ok renames

end Script.Attempt

open Script Script.Attempt

def Renaming.request (ρ : Renaming) : Request → Request
  | .debugger (.removeBreakpoint id) => .debugger (.removeBreakpoint (id + ρ.breakpoints))
  | .debugger command => .debugger command
  | .context id command => .context (ρ.address id) command

namespace Renames

variable {ρ : Renaming} {a b : Debugger}

theorem corresponds_debuggerCommand (system : Nat) (command : DebuggerCommand) :
    Corresponds ρ (Request.attempt system (.debugger command))
      ((ρ.request (.debugger command)).attempt system) := by
  cases command with
  | start => exact (corresponds_change fun _ _ h => .ok h.start).andReturn _ _
  | stop => exact (corresponds_change fun _ _ h => h.stop).andReturn _ _
  | forceStop => exact (corresponds_perform fun _ _ h => .ok h.forceStop).andReturn _ _
  | isStarted | settings =>
      exact corresponds_of_reads (within_bind within_debugger fun _ => within_pure _)
        (within_bind within_debugger fun _ => within_pure _)
  | addBreakpoint source target guard =>
      exact (corresponds_change fun _ _ h => h.addBreakpoint source target guard).andReturn _ _
  | removeBreakpoint id => exact (corresponds_change fun _ _ h => h.removeBreakpoint id).andReturn _ _
  | breakpoints | catchpoint =>
      exact corresponds_of_reads (within_map (within_query _) _) (within_map (within_query _) _)
  | setCatchpoint className => exact (corresponds_perform fun _ _ h => h.setCatchpoint className).andReturn _ _
  | setPostMortem on => exact (corresponds_perform fun _ _ h => h.setPostMortem on).andReturn _ _
  | setTracing on =>
      exact (corresponds_perform fun _ _ h => .ok (h.onSettings ({ · with tracing := on }))).andReturn _ _
  | setKeepFrameBinding on =>
      exact (corresponds_perform fun _ _ h => .ok (h.onSettings ({ · with keepFrameBinding := on }))).andReturn _ _
  | setDebug on => exact (corresponds_perform fun _ _ h => .ok (h.onSettings ({ · with debug := on }))).andReturn _ _
  | contexts =>
      exact (corresponds_change fun _ _ h => h.liveContexts.imp (·.2)).andReads
        (fun _ => within_bind within_debugger fun _ => within_pure _)
        fun _ => within_bind within_debugger fun _ => within_pure _
  | lastContext =>
      exact corresponds_of_reads
        (within_bind (within_query _) fun _ => within_bind within_debugger fun _ => within_pure _)
        (within_bind (within_query _) fun _ => within_bind within_debugger fun _ => within_pure _)
  | interrupt =>
      have interrupted : Corresponds ρ (onDebugger fun d => d.interrupt system)
          (onDebugger fun d => d.interrupt system) := fun _ _ h _ => h.interrupt system
      exact interrupted.andReturn _ _
  | interruptLast =>
      exact (corresponds_change fun _ _ h => h.interruptLast).andReads
        (fun _ => within_bind within_debugger fun _ => within_pure _)
        fun _ => within_bind within_debugger fun _ => within_pure _
  | suspendAll => exact (corresponds_perform fun _ _ h => h.suspendAll system).andReturn _ _
  | resumeAll => exact (corresponds_perform fun _ _ h => h.resumeAll system).andReturn _ _

theorem corresponds_contextCommand (id : ContextId) (command : ContextCommand) :
    Corresponds ρ (command.perform id) (command.perform (ρ.address id)) := by
  have commanded {f : Context → Except Error Context} (unnumbered : Context.UnnumberedCommand f) :
      Corresponds ρ (commandContext id f) (commandContext (ρ.address id) f) :=
    (corresponds_perform fun _ _ h => h.command id unnumbered).andReturn _ _
  cases command with
  | suspend => exact (corresponds_perform fun _ _ h => h.suspend id).andReturn _ _
  | resume => exact (corresponds_perform fun _ _ h => h.resume id).andReturn _ _
  | describe | summarize | frame | temporary =>
      exact corresponds_of_reads (within_map (within_query _) _) (within_map (within_query _) _)
  | evaluate index condition =>
      have reads (id : ContextId) : Within Eq (ContextCommand.perform id (.evaluate index condition)) := by
        refine within_bind within_debugger fun _ => ?_
        split
        · exact within_pure _
        · exact within_throw _
      exact corresponds_of_reads (reads _) (reads _)
  | step n force => exact commanded (.step n force)
  | stepOver n index force => exact commanded (.stepOver n index force)
  | stopFrame index => exact commanded (.stopFrame index)
  | interrupt => exact commanded .interrupt
  | setTracing on =>
      exact commanded (.ok (f := ({ · with tracing := on })) ⟨fun _ _ => rfl, fun _ => rfl, fun _ => rfl⟩)
  | setTemporary source target guard =>
      exact (corresponds_change fun _ _ h => h.setTemporary id source target guard).andReturn _ _
  | clearTemporary => exact (corresponds_change fun _ _ h => h.clearTemporary id).andReturn _ _

theorem serve (h : Renames ρ a b) (request : Request) (system : Nat) :
    Renames ρ (request.serve system a) ((ρ.request request).serve system b) := by
  cases request with
  | debugger command => exact corresponds_debuggerCommand system command a b h _
  | context id command => exact corresponds_contextCommand id command a b h _

end Renames

end EventDebugger
