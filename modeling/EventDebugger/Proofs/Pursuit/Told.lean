import EventDebugger.Proofs.Pursuit.Skips
import EventDebugger.Proofs.Pursuit.Trails
import EventDebugger.Proofs.Ticket.Stepping

/-!
# Breakpoints that the front-end is told of

The front-end is told of a breakpoint for an event that met it, in a context that has moved since it halted last, and
what follows is the halt. Other threads go on between the phases of the search: by the time of the call they may have
removed the breakpoint, and they may take away the temporary breakpoint of the context, which the front-end is told of
then.

* `Scene.told_of_breakpoint`: what is known when the front-end is told of a breakpoint.
-/

namespace EventDebugger

open Context (Follows Undue)
open Debugger (Found)

theorem Context.follows_savePosition {context : Context} {halt : Position}
    (place : context.savePosition.place? = some halt) : context.savePosition.Follows halt [] := by
  have frames : context.savePosition.stack ≠ [] := by
    intro empty
    rw [Context.place?_eq, empty] at place
    cases place
  refine ⟨context.isSaved_savePosition halt place, ?_⟩
  simp [Context.moved_savePosition frames]

namespace Scene

variable {a b a₀ a₁ a₂ : Scene} {s : Nat} {deed : Deed} {id first : ContextId} {event : Event}
  {events since : List Event} {halt position : Position} {bp : Breakpoint} {found : Found} {callback : Callback}
  {w₀ : World}

/-! ## Calls -/

theorem Calls.known (h : a.Calls s deed b callback) (sound : a.Sound first) :
    ∃ task rest next, a.world.tasks s = task :: rest ∧ task.context < a.world.debugger.contexts.size ∧
      task.context = callback.context ∧ b.world.tasks s = { task with stage := .called callback next } :: rest := by
  have known {task : Task} {rest : List Task} (tasks : a.world.tasks s = task :: rest) (holds : task.stage.holds) :
      task.context < a.world.debugger.contexts.size :=
    (sound.heard.lodged.home s task (World.mem_innermost tasks) (Stage.not_isInspecting_of_holds holds)).1
  have about {outcome : Outcome} {id : ContextId} {next : Continuation} (about : outcome.About id)
      (calls : outcome = .call callback next) : id = callback.context := by
    subst calls
    cases about <;> rfl
  cases h.from with
  | piece is unsought outcome leads =>
      rename_i after
      refine ⟨_, _, after, is.tasks, known is.tasks is.holds, about is.about outcome, ?_⟩
      rw [leads, World.tasks_proceed, outcome]
      rfl
  | search pursues tasks steps leads =>
      rename_i after d
      refine ⟨_, _, after, tasks, known tasks (sound.holds pursues tasks), about steps.about rfl, ?_⟩
      rw [leads]
      exact World.tasks_proceed _ _ (_, d)

theorem Calls.saves (h : a.Calls s deed b (.line id halt)) (sound : a.Sound first) :
    ∃ halting : Context, b.world.debugger.context id = halting.savePosition := by
  obtain ⟨task, rest, next, tasks, known, rfl, -⟩ := h.known sound
  cases h.from with
  | piece is unsought outcome leads =>
      rename_i piece _
      cases tasks.symm.trans is.tasks
      have ends := is.ends known
      rw [unsought] at ends
      subst leads
      change ∃ halting : Context, piece.2.context task.context = halting.savePosition
      cases ends with
      | passed missed quiet same =>
          cases outcome
          cases quiet
      | halted unsought halting same saved => exact ⟨halting, saved⟩
      | reported sought | fired sought => cases sought
  | search pursues tasks' steps leads =>
      cases tasks.symm.trans tasks'
      rw [leads]
      exact (steps.makes known).saves rfl

/-- The last halt of a context with a frame: where it was, and the events that the context took since then. The event
that halted was the last one that the context took before. -/
inductive HaltedLast (id : ContextId) (a₀ a : Scene) (halt : Position) (since : List Event) : Prop where
  | intro {a₁ a₂ : Scene} {s : Nat} {deed : Deed} {events : List Event}
      (before : Noted Anything (heeds id) a₀ events a₁) (halts : a₁.Calls s deed a₂ (.line id halt))
      (frames : (a₂.world.debugger.context id).stack ≠ [])
      (last : ∀ task ∈ (a₁.world.tasks s).head?, task.event = (events ++ heeds id a₁ s deed).getLast?)
      (since : Noted (Stays id) (heeds id) a₂ since a)

theorem HaltedLast.follows (h : HaltedLast id a₀ a halt since) (sound : a₀.Sound first) :
    (a.world.debugger.context id).Follows halt since := by
  obtain ⟨before, halts, frames, last, since⟩ := h
  have sound₁ := before.course.sound sound
  obtain ⟨task, rest, next, tasks, known, rfl, tasks'⟩ := halts.known sound₁
  -- The innermost frame is at the position of the event that halts.
  obtain ⟨event, own, awaits⟩ := (sound₁.step halts.step).fitted _ _ (World.mem_innermost tasks')
  have stands := (before.step halts.step trivial).stands sound
  have place := (stands event _ ((last task (tasks ▸ rfl)).symm.trans own) awaits.mayCall
    (awaits.line rfl)).2.resolve_right
    frames
  obtain ⟨halting, saved⟩ := halts.saves sound₁
  rw [saved] at place
  have follows := Context.follows_savePosition place
  rw [← saved] at follows
  exact since.follows (halts.step.known known) follows fun stays => stays

/-! ## The call -/

theorem Calls.reports (h : a.Calls s deed b (.breakpoint id bp)) (sound : a.Sound first) :
    ∃ pursuit task rest found, a.pursuits s = some pursuit ∧ a.world.tasks s = task :: rest ∧ task.context = id ∧
      task.context < a.world.debugger.contexts.size ∧ pursuit.phase = .passed found ∧ found.breakpoint = bp ∧
      found.isOwn (a.world.debugger.context id) = false ∧
      b = a.withPursuit (a.world.proceed s task rest
        (.call (.breakpoint id bp) (.breakpointReported pursuit.quest.position pursuit.quest.onLine),
          a.world.debugger.updateContext id fun context => { context with reason := .breakpoint })) s none := by
  obtain ⟨task, rest, next, tasks, known, rfl, -⟩ := h.known sound
  cases h.from with
  | piece is unsought outcome leads =>
      cases tasks.symm.trans is.tasks
      have ends := is.ends known
      rw [unsought] at ends
      cases ends with
      | passed missed quiet same =>
          cases outcome
          cases quiet
      | halted => cases outcome
      | reported sought | fired sought => cases sought
  | search pursues tasks' steps leads =>
      rename_i pursuit _ _ _ _
      cases tasks.symm.trans tasks'
      generalize same : pursuit.phase = phase at steps
      cases steps with
      | reports lost => exact ⟨pursuit, task, rest, _, pursues, tasks, rfl, known, same, rfl, lost, leads⟩

/-- A persistent breakpoint was listed when the registry was looked through, and it still is, unless it was removed or
the activation is over since then. -/
def WasListed (a₀ : Scene) (s : Nat) (quest : Quest) (a : Scene) (bp : Breakpoint) : Prop :=
  ∃ x log, Earlier a₀ s quest .listing x a ∧ Noted (Searches s) filings x log a ∧ bp ∈ x.world.debugger.registry ∧
    (a.world.debugger.isStarted → .begun ∉ log → .removed bp.id ∉ log → bp ∈ a.world.debugger.registry)

/-- The temporary breakpoint that a context had when it was looked at was cleared or replaced since then. -/
def WasTaken (a₀ : Scene) (s : Nat) (id : ContextId) (quest : Quest) (a : Scene) (bp : Breakpoint) (number : Nat) :
    Prop :=
  ∃ x, Earlier a₀ s quest .looking x a ∧ (x.world.debugger.context id).temporary = some bp ∧
    (x.world.debugger.context id).temporaryCount = number ∧
    ((a.world.debugger.context id).temporary = none ∨ (a.world.debugger.context id).temporaryCount ≠ number)

/-- What is known when the front-end is told of a breakpoint for an event. -/
structure Justified (a₀ a b : Scene) (s : Nat) (id : ContextId) (event : Event) (position : Position) (found : Found) :
    Prop where
  handled : ∃ task ∈ (a.world.tasks s).head?, task.context = id ∧ task.event = some event
  located : event.position = some position
  place : event.kind = .line false ∧ found.breakpoint.matchesPosition position ∨
    event.kind = .call ∧ found.breakpoint.matchesMethod (Debugger.enteredType event) event.method
  listed : ∀ bp, found = .listed bp → WasListed a₀ s (event.quest position) a bp ∧
    (a.world.debugger.breakpointCount < 4294967296 → 0 < bp.id ∧ bp.id < 4294967296)
  taken : ∀ bp number, found = .temporary bp number → WasTaken a₀ s id (event.quest position) a bp number
  judged : WasJudged a₀ s id (event.quest position) a found
  heard : (a.world.debugger.context id).ignored = false ∧ (a.world.debugger.context id).skipped = false
  /-- Only a step over no line at all can be due in the call. -/
  undue : WasUndue a₀ s id (event.quest position) a ∧ (Course Paced a₀ a → (a.world.debugger.context id).Undue)
  progress : ∀ halt since, HaltedLast id a₀ a halt since → ∃ other ∈ since, other.Leaves halt
  answered : ∀ b' c, Course Anything b b' → b'.world.tasks s = b.world.tasks s → b'.Step s (.act (.move .answer)) c →
    c.call? s = some (.line id position) ∧
      (Course (Aside id) b b' → (c.world.debugger.context id).stopReason = .breakpoint)

theorem place_of_meets {quest : Quest} (same : quest = event.quest position)
    (kind : event.kind = if quest.onLine then .line false else .call) (meets : quest.meets bp) :
    event.kind = .line false ∧ bp.matchesPosition position ∨
      event.kind = .call ∧ bp.matchesMethod (Debugger.enteredType event) event.method := by
  rw [same] at meets
  cases onLine : quest.onLine with
  | true =>
      rw [onLine, if_pos rfl] at kind
      rw [Event.quest_line kind] at meets
      exact .inl ⟨kind, meets⟩
  | false =>
      rw [onLine, if_neg Bool.false_ne_true] at kind
      rw [Event.quest_call kind] at meets
      exact .inr ⟨kind, meets⟩

theorem WasMet.meets {quest : Quest} (met : WasMet a₀ s id quest a found) : quest.meets found.breakpoint := by
  cases found with
  | temporary =>
      obtain ⟨_, _, _, _, meets⟩ := met
      exact meets
  | listed =>
      obtain ⟨_, _, _, meets⟩ := met
      exact meets

theorem WasMet.listed {quest : Quest} (met : WasMet a₀ s id quest a (.listed bp))
    (ended : a₀.world.debugger.session = none) : WasListed a₀ s quest a bp ∧
      0 < bp.id ∧ bp.id ≤ a.world.debugger.breakpointCount := by
  obtain ⟨x, earlier, listed, -⟩ := met
  have initial : a₀.world.debugger.Filed a₀.world.debugger.breakpointCount [] := by
    refine ⟨rfl, rfl, fun started => ?_⟩
    rw [Debugger.isStarted, ended] at started
    cases started
  obtain ⟨before, noted⟩ := earlier.reached.noted filings
  obtain ⟨log, later⟩ := earlier.since.noted filings
  have filed := noted.filed initial
  refine ⟨⟨x, log, earlier, later, listed, fun started lasts kept => ?_⟩, ?_⟩
  · exact later.spares ⟨_, _, filed⟩ listed ⟨lasts, kept⟩ started
  · have active : x.world.debugger.isStarted := Option.isSome_iff_exists.mpr (Debugger.session_of_listed listed)
    rw [filed.listed active] at listed
    have number : bp.id ∈ (Filing.given ([] ++ before)).map (·.id) :=
      List.mem_map_of_mem ((Filing.registry_sublist _).subset listed)
    rw [filed.numbers, List.mem_range'_1] at number
    have count := (later.filed filed).count
    rw [Filing.given_append, List.length_append] at count
    omega

theorem Course.keeps {P : Context → Prop} (course : Course (Aside id) a b) (known : id < a.world.debugger.contexts.size)
    (inert : Inert P) (lasting : Untemporary P) : Debugger.Preserves P id a.world.debugger b.world.debugger := by
  induction course with
  | refl => exact fun holds => holds
  | step course next aside ih => exact ih.trans (next.keeps (course.known known) aside inert (.inl lasting))

theorem inert_reason (reason : StopReason) : Inert fun context => context.reason = reason where
  tolerant := ⟨fun h _ _ _ => h, fun _ _ _ h => h⟩
  unstepped h _ _ _ _ _ _ := h
  bare h := h
  skips h _ := h

theorem stopReason_haltAt {d : Debugger} (known : id < d.contexts.size) (position : Position) (onLine : Bool) :
    ((d.haltAt id position onLine).2.context id).stopReason = (d.context id).stopReason := by
  have kept (context : Context) : context.savePosition.stopReason = context.stopReason := by
    obtain ⟨_, _, _, _, same⟩ := context.savePosition_eq
    rw [same]
    rfl
  rw [Debugger.context_haltAt known, kept]
  cases onLine <;> rfl

theorem Step.answered {c : Scene} {task : Task} {rest : List Task} {onLine : Bool}
    (answer : a.Step s (.act (.move .answer)) c)
    (sound : a.Sound first) (tasks : a.world.tasks s = task :: rest) {callback : Callback}
    (stage : task.stage = .called callback (.breakpointReported position onLine)) :
    c.call? s = some (.line task.context position) ∧
      ((a.world.debugger.context task.context).reason = .breakpoint →
        (c.world.debugger.context task.context).stopReason = .breakpoint) := by
  have event : task.stage.isInspecting = false := by
    rw [stage]
    rfl
  have known := (sound.heard.lodged.home s task (World.mem_innermost tasks) event).1
  have live := (sound.heard.attends s task (World.mem_innermost tasks) event).2.1
  cases answer with
  | act quiet apart unsought closed acts =>
      cases acts with
      | move step =>
          cases step with
          | answer tasks' stage' =>
              cases tasks.symm.trans tasks'
              cases stage.symm.trans stage'
              refine ⟨?_, fun reason => ?_⟩
              · rw [call?, Option.isNone_iff_eq_none.mp quiet, World.tasks_proceed, Continuation.run,
                  Debugger.outcome_haltAt]
                rfl
              · refine (stopReason_haltAt known position onLine).trans ?_
                rw [Context.stopReason, live, if_neg Bool.false_ne_true, reason]

/-- Whenever the front-end is told of a breakpoint, whatever other threads do meanwhile, an event of the context has
met it, and what justified the report then still holds or was taken back since. -/
theorem told_of_breakpoint (idle : ∀ s, w₀.tasks s = []) (own : w₀.debugger.host.OwnThreads)
    (ended : w₀.debugger.session = none) (before : Course Anything (ofWorld w₀) a)
    (calls : a.Calls s deed b (.breakpoint id bp)) :
    ∃ event position found, found.breakpoint = bp ∧ Justified (ofWorld w₀) a b s id event position found := by
  have sound₀ : (ofWorld w₀).Sound w₀.debugger.contexts.size := .of_ended idle own ended
  have sound := before.sound sound₀
  obtain ⟨pursuit, task, rest, found, pursues, tasks, rfl, known, phase, rfl, lost, leads⟩ := calls.reports sound
  have holds := sound.holds pursues tasks
  have event' := Stage.not_isInspecting_of_holds holds
  have member := World.mem_innermost tasks
  have trail := before.trail sound₀ (fun _ => rfl) pursues tasks
  have nested := before.nested sound₀ (Nested.of_idle idle) s
  obtain ⟨tasks', own', at', same, kind, -⟩ := sound.searches pursues
  rename_i event position
  cases tasks.symm.trans tasks'
  rw [phase, same] at trail
  cases trail with
  | passed undue moved met judged =>
      refine ⟨event, position, found, rfl, ⟨task, tasks ▸ rfl, rfl, own'⟩, at',
        place_of_meets same kind (same ▸ met.meets),
        ?_, ?_, judged, ⟨(sound.heard.attends s task member event').2.2, nested.heeded pursues tasks⟩,
        ⟨undue, fun paced => ?_⟩, fun halt since halted => ?_, fun b' c course tasks' answer => ?_⟩
      · rintro bp rfl
        obtain ⟨listed, positive, number⟩ := met.listed ended
        exact ⟨listed, fun fewer => ⟨positive, Nat.lt_of_le_of_lt number fewer⟩⟩
      · rintro bp number rfl
        obtain ⟨x, earlier, temporary, count, -⟩ := met
        refine ⟨x, earlier, temporary, count, ?_⟩
        simpa [Found.isOwn, ← not_and_or, imp_iff_not_or] using lost
      · have fresh : ((ofWorld w₀).world.debugger.context task.context).Undue := by
          have recent := (sound.heard.attends s task member event').1
          rw [show (ofWorld w₀).world.debugger.context task.context = _ from Debugger.context_unknown recent]
          rfl
        exact paced.undue sound₀ fresh
      · exact (halted.follows sound₀).moved.mp moved
      · have reached := (before.step calls.step trivial).trans course
        let next : Continuation := .breakpointReported pursuit.quest.position pursuit.quest.onLine
        have called : b.world.tasks s =
            { task with stage := .called (.breakpoint task.context found.breakpoint) next } :: rest := by
          rw [leads]
          exact World.tasks_proceed _ _ (_, _)
        obtain ⟨line, reason⟩ := answer.answered (reached.sound sound₀) (tasks'.trans called) rfl
        rw [show pursuit.quest.position = position from congrArg Quest.position same] at line
        refine ⟨line, fun aside => reason (aside.keeps (calls.step.known known) (inert_reason .breakpoint)
          (fun same _ _ => same) ?_)⟩
        rw [leads]
        exact congrArg Context.reason (a.world.debugger.context_updateContext_self _ known)

/-! ## Two reports -/

open World (unstarted lineOf entryOf)

def started : Scene := (ofWorld unstarted).afterwards [(0, .request (.debugger .start))]

def toReport : List (Nat × Deed) :=
  bySystem 0 (.request (.debugger (.addBreakpoint "a.rb" (.line 1) none)) :: Deed.ofEvent (lineOf 1) 5)

def reporting : Scene := started.afterwards toReport

def told : Scene := reporting.afterwards [(0, .next)]

def haltedOnFirst : Scene := told.afterwards [(0, .act (.move .answer))]

def toFirstLine : List (Nat × Deed) :=
  bySystem 0 ([.act (.move .answer), .act (.move .release)] ++ Deed.ofEvent (lineOf 2) 3 ++
    [.act (.move .release)] ++ Deed.ofEvent (lineOf 1) 5)

def backOnFirst : Scene := haltedOnFirst.afterwards toFirstLine

def toldAgain : Scene := backOnFirst.afterwards [(0, .next)]

def CallsNoLine (id : ContextId) (a : Scene) (s : Nat) (deed : Deed) : Prop :=
  (a.perform? s deed).all fun b =>
    match b.call? s with
    | some (.line other _) => other != id || !deed.dispatches
    | _ => true

instance : Decidable (CallsNoLine id a s deed) := inferInstanceAs (Decidable (_ = true))

theorem stays_of_callsNoLine (h : CallsNoLine id a s deed) : Stays id a s deed := by
  intro b position calls
  rw [CallsNoLine, perform?_of_step calls.step, Option.all_some, calls.calls, calls.dispatches] at h
  simp at h

theorem told_again_of_breakpoint :
    Course Anything (ofWorld unstarted) backOnFirst ∧
      backOnFirst.Calls 0 .next toldAgain (.breakpoint 0 ⟨1, "a.rb", .line 1, none⟩) ∧
      HaltedLast 0 (ofWorld unstarted) backOnFirst ⟨"a.rb", 1⟩ [lineOf 2, lineOf 1] ∧
      ∃ event position found, Justified (ofWorld unstarted) backOnFirst toldAgain 0 0 event position found ∧
        found.breakpoint = ⟨1, "a.rb", .line 1, none⟩ := by
  have follow {a : Scene} (deeds : List (Nat × Deed)) (can : (a.follow? Anything deeds).isSome) :
      Noted Anything (heeds 0) a (notesAll (heeds 0) a deeds) (a.afterwards deeds) :=
    .afterwards deeds can fun _ _ _ ok => ok
  have toStarted : Noted Anything (heeds 0) (ofWorld unstarted) [] started :=
    follow [(0, .request (.debugger .start))] rfl
  have toReporting : Noted Anything (heeds 0) started [lineOf 1] reporting := follow toReport rfl
  have toTold : Noted Anything (heeds 0) reporting [] told := follow [(0, .next)] rfl
  have noted : Noted Anything (heeds 0) (ofWorld unstarted) [lineOf 1] told :=
    toStarted.trans (toReporting.trans toTold)
  have before : Course Anything (ofWorld unstarted) backOnFirst :=
    noted.course.trans ((course_afterwards ..).trans (course_afterwards ..))
  have calls : backOnFirst.Calls 0 .next toldAgain (.breakpoint 0 ⟨1, "a.rb", .line 1, none⟩) :=
    ⟨step_afterwards rfl, rfl, rfl⟩
  have since : Noted (Stays 0) (heeds 0) haltedOnFirst [lineOf 2, lineOf 1] backOnFirst :=
    .afterwards toFirstLine (by rfl : (haltedOnFirst.follow? (CallsNoLine 0) toFirstLine).isSome = true)
      fun _ _ _ => stays_of_callsNoLine
  have halted : HaltedLast 0 (ofWorld unstarted) backOnFirst ⟨"a.rb", 1⟩ [lineOf 2, lineOf 1] :=
    .intro noted ⟨step_afterwards rfl, rfl, rfl⟩ (by decide) (by rintro _ ⟨⟩; rfl) since
  obtain ⟨event, position, found, same, justified⟩ :=
    told_of_breakpoint (fun _ => rfl) Host.ownThreads_initial rfl before calls
  exact ⟨before, calls, halted, event, position, found, justified, same⟩

/-! ## Interference -/

def Outward (a : Scene) (s : Nat) (deed : Deed) : Prop := deed.isActivation → a.world.tasks s = []

instance : Decidable (Outward a s deed) := inferInstanceAs (Decidable (deed.isActivation → a.world.tasks s = []))

theorem outward_afterwards (deeds : List (Nat × Deed)) (can : (a.follow? Outward deeds).isSome) :
    Course Outward a (a.afterwards deeds) := by
  have noted : Noted Outward (fun _ _ _ => ([] : List Unit)) a _ (a.afterwards deeds) :=
    .afterwards deeds can fun _ _ _ ok => ok
  exact noted.course

def toMethod : List (Nat × Deed) :=
  bySystem 0 (Deed.ofEvent (lineOf 1) 3 ++ [.act (.move .release),
    .request (.debugger (.addBreakpoint "T" (.method "f") none)), .request (.context 0 (.step 0 false))] ++
    Deed.ofEvent (entryOf 10) 4)

def toRemoval : List (Nat × Deed) := toReport ++ bySystem 1 [.request (.debugger (.removeBreakpoint 1))]

def toClearing : List (Nat × Deed) :=
  bySystem 0 (Deed.ofEvent (lineOf 1) 3 ++ [.act (.move .release),
    .request (.context 0 (.setTemporary "a.rb" (.line 2) none))] ++ Deed.ofEvent (lineOf 2) 4) ++
  bySystem 1 [.request (.context 0 .clearTemporary)]

def toOverride : List (Nat × Deed) :=
  bySystem 0 [.act (.move (.register "main")), .act (.move (.register "worker")), .act (.move (.begin ⟨1, "main"⟩)),
    .request (.debugger (.addBreakpoint "a.rb" (.line 5) none))] ++
  bySystem 1 (.act (.move (.begin ⟨2, "worker"⟩)) :: Deed.ofEvent (lineOf 5) 6) ++
  bySystem 2 [.request (.debugger .forceStop), .request (.debugger .start),
    .request (.debugger (.addBreakpoint "a.rb" (.line 1) none))] ++
  bySystem 0 (Deed.ofEvent (lineOf 1) 6) ++
  bySystem 1 [.act (.move .answer), .act (.move .answer), .act (.move .release)] ++
  bySystem 0 (.request (.context 1 (.step 1 false)) :: Deed.ofEvent (lineOf 2) 1 ++
    [.act (.move .answer), .act (.move .release)])

def overridden : Scene := started.afterwards toOverride

def haltedLate : Scene := overridden.afterwards [(0, .act (.move .answer))]

def toFirstAgain : List (Nat × Deed) :=
  bySystem 0 ([.act (.move .answer), .act (.move .release)] ++ Deed.ofEvent (lineOf 1) 5)

/-- No callback stops the debugger, and the front-end is told of a breakpoint while a step is due, of one that was
removed, and of a temporary one that was cleared. If another event of the context was dispatched before the halt, the
reason of the halt can be another one, and the front-end can be told of a breakpoint again at the same position. -/
theorem told_in_spite :
    let report (deeds : List (Nat × Deed)) (bp : Breakpoint) (P : Scene → Prop) : Prop :=
      let a := started.afterwards deeds
      Course Outward (ofWorld unstarted) a ∧ a.Calls 0 .next (a.afterwards [(0, .next)]) (.breakpoint 0 bp) ∧ P a
    report toMethod ⟨1, "T", .method "f", none⟩ (fun a => (a.world.debugger.context 0).isStepDue) ∧
      report toRemoval ⟨1, "a.rb", .line 1, none⟩ (fun a => a.world.debugger.registry = []) ∧
      report toClearing ⟨0, "a.rb", .line 2, none⟩ (fun a => (a.world.debugger.context 0).temporary = none) ∧
      let again := haltedLate.afterwards toFirstAgain
      Course Outward (ofWorld unstarted) overridden ∧
        overridden.call? 0 = some (.breakpoint 1 ⟨2, "a.rb", .line 1, none⟩) ∧
        overridden.Calls 0 (.act (.move .answer)) haltedLate (.line 1 ⟨"a.rb", 1⟩) ∧
        (haltedLate.world.debugger.context 1).stopReason = .step ∧
        (haltedLate.world.debugger.context 1).stack ≠ [] ∧
        Noted (Stays 1) (heeds 1) haltedLate [lineOf 1] again ∧ ¬ (lineOf 1).Leaves ⟨"a.rb", 1⟩ ∧
        again.Calls 0 .next (again.afterwards [(0, .next)]) (.breakpoint 1 ⟨2, "a.rb", .line 1, none⟩) := by
  have start : Course Outward (ofWorld unstarted) started := outward_afterwards [(0, .request (.debugger .start))] rfl
  have since : Noted (Stays 1) (heeds 1) haltedLate [lineOf 1] (haltedLate.afterwards toFirstAgain) :=
    .afterwards toFirstAgain (by rfl : (haltedLate.follow? (CallsNoLine 1) toFirstAgain).isSome = true)
      fun _ _ _ => stays_of_callsNoLine
  have same : ¬ (lineOf 1).Leaves ⟨"a.rb", 1⟩ := by
    rintro ⟨_, ⟨⟩, ne⟩
    exact ne rfl
  refine ⟨⟨start.trans (outward_afterwards toMethod rfl), ⟨step_afterwards rfl, rfl, rfl⟩, rfl⟩,
    ⟨start.trans (outward_afterwards toRemoval rfl), ⟨step_afterwards rfl, rfl, rfl⟩, rfl⟩,
    ⟨start.trans (outward_afterwards toClearing rfl), ⟨step_afterwards rfl, rfl, rfl⟩, rfl⟩,
    start.trans (outward_afterwards toOverride rfl), rfl, ⟨step_afterwards rfl, rfl, rfl⟩, rfl, by decide, since, same,
    ⟨step_afterwards rfl, rfl, rfl⟩⟩

end Scene

end EventDebugger
