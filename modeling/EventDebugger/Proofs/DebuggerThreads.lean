import EventDebugger.Proofs.Handling
import EventDebugger.Proofs.Histories
import EventDebugger.Proofs.PostMortem.Runs

/-!
# The threads of the front-end

Whether events of a thread are ignored is decided once, when its context is made, by what the host says of the
thread then. The events of a thread of which it says that it is one of the front-end are dropped on arrival if the
host said so whenever the debugger made a context for the thread, by whichever operation it was seen first. A thread
that is flagged later keeps the context that it has, and its events are handled on.

* `Debugger.Edits.brands`: the marks of new contexts.
* `Debugger.Operates.sidelined`: what every operation leaves to the context of a thread.
* `Debugger.drops_of_foreseen`: the events of a thread that was flagged in time.
-/

namespace EventDebugger

namespace Host

variable {a b : Host} {system : Nat}

theorem isDebuggerThread_register (host : Host) (name : String) (thread : Thread) :
    (host.register name).2.isDebuggerThread thread = host.isDebuggerThread thread := by
  simp only [isDebuggerThread, record?, register, List.find?_append]
  cases host.threads.find? fun record => record.thread == thread with
  | some record => rfl
  | none =>
      simp only [Option.none_or, List.find?_cons, List.find?_nil]
      split
      · next new =>
          split at new <;> cases new
          rfl
      · rfl

theorem isDebuggerThread_bind (host : Host) (system : Nat) (thread other : Thread) :
    (host.bind system thread).isDebuggerThread other = host.isDebuggerThread other :=
  host.isDebuggerThread_updateThread thread other fun _ => ⟨rfl, rfl⟩

theorem Met.isDebuggerThread (met : a.Met system b) (thread : Thread) :
    b.isDebuggerThread thread = a.isDebuggerThread thread := by
  rcases met with rfl | rfl
  · rfl
  · simp only [currentThread]
    split
    · rfl
    · rw [isDebuggerThread_bind, isDebuggerThread_register]

end Host

namespace Debugger

variable {d d' d'' d₀ : Debugger} {system : Nat} {thread : Thread} {id : ContextId}

/-! ## New contexts -/

structure Brands (d d' : Debugger) : Prop where
  flags : ∀ thread, d'.host.isDebuggerThread thread = d.host.isDebuggerThread thread
  fresh : ∀ id, d.contexts.size ≤ id → id < d'.contexts.size →
    (d'.context id).ignored = d.host.isDebuggerThread (d'.context id).thread

theorem Brands.of_size (flags : ∀ thread, d'.host.isDebuggerThread thread = d.host.isDebuggerThread thread)
    (size : d'.contexts.size = d.contexts.size) : Brands d d' :=
  ⟨flags, fun _ unknown known => absurd (size ▸ known) (Nat.not_lt.mpr unknown)⟩

theorem Brands.trans (first : Brands d d') (second : Brands d' d'')
    (identity : ∀ id < d'.contexts.size, (d''.context id).identity = (d'.context id).identity) : Brands d d'' := by
  refine ⟨fun thread => (second.flags thread).trans (first.flags thread), fun id unknown known => ?_⟩
  by_cases old : id < d'.contexts.size
  · have same := identity id old
    simp only [Context.identity, Prod.mk.injEq] at same
    rw [same.1, same.2.2.2.1, first.fresh id unknown old]
  · rw [second.fresh id (Nat.le_of_not_lt old) known, first.flags]

theorem brands_newContext (d : Debugger) (thread : Thread) : Brands d (d.newContext thread).2 := by
  refine ⟨fun _ => rfl, fun id unknown known => ?_⟩
  rw [size_newContext] at known
  obtain rfl : id = d.contexts.size := Nat.le_antisymm (Nat.le_of_lt_succ known) unknown
  have new := context_addContext_new { d with contextCount := d.contextCount + 1 }
    (.initial thread (d.contextCount + 1) (d.host.isDebuggerThread thread))
  change (d.newContext thread).2.context d.contexts.size = _ at new
  rw [new]
  rfl

theorem brands_track (d : Debugger) (session : Session) (thread : Thread) : Brands d (d.track session thread).2 := by
  simp only [track]
  split
  · exact .of_size (fun _ => rfl) rfl
  · have made := d.brands_newContext thread
    exact ⟨made.flags, made.fresh⟩

theorem brands_entriesFor (d : Debugger) (table : ThreadTable) (threads : List Thread) :
    Brands d (d.entriesFor table threads).2 := by
  induction threads generalizing d with
  | nil => exact .of_size (fun _ => rfl) rfl
  | cons thread threads ih =>
      simp only [entriesFor]
      split
      · exact ih d
      · have opens := ((d.newContext thread).2.entriesFor_spec table threads).1
        exact (d.brands_newContext thread).trans (ih _) fun id known => congrArg _ (opens.old id known)

theorem Edit.brands (edit : Edit system d d') : Brands d d' := by
  cases edit with
  | host met => exact .of_size met.isDebuggerThread rfl
  | counts rest _ =>
      rw [rest]
      exact .of_size (fun _ => rfl) rfl
  | wakeUp | session | prune => exact .of_size (fun _ => rfl) rfl
  | context => exact .of_size (fun _ => rfl) (size_updateContext ..)
  | @track session active thread => exact d.brands_track session thread
  | @rebuild session active =>
      have entries := d.brands_entriesFor session.table d.host.liveThreads
      exact ⟨entries.flags, entries.fresh⟩

theorem Edits.brands (edits : Edits system d d') : Brands d d' := by
  induction edits with
  | refl => exact .of_size (fun _ => rfl) rfl
  | tail _ edit ih => exact ih.trans edit.brands edit.remains.identity

/-! ## The context of a thread -/

def Sidelined (d : Debugger) (thread : Thread) : Prop :=
  ∀ id, d.contextOf? thread = some id → (d.context id).ignored = true

/-- An operation, before which the host flags a thread if a context is made for the thread. -/
def Foresees (thread : Thread) (d d' : Debugger) : Prop :=
  Operates d d' ∧ ∀ id, d'.contextOf? thread = some id →
    d.contextOf? thread = some id ∨ d.host.isDebuggerThread thread

theorem Operates.origin (operates : Operates d d') (h : d.Regular) (found : d'.contextOf? thread = some id) :
    d.contextOf? thread = some id ∨ (d'.context id).ignored = d.host.isDebuggerThread thread := by
  have unknown (empty : d'.session = none) : d'.contextOf? thread ≠ some id := by
    intro found
    rw [contextOf?, empty, Option.bind_none] at found
    cases found
  cases operates.shape with
  | edits system edits =>
      have well := h.numbered.wellTracked.1
      refine (edits.remains.origin well found).imp_right fun new => ?_
      obtain ⟨known, home⟩ := (edits.remains.tracked well).known found
      rw [edits.brands.fresh id new known, home]
  | touches system own touches => exact .inl (contextOf?_congr touches.session thread ▸ found)
  | exits system own last touches ended =>
      have stopped := last.isStarted_forceStop
      rw [← ended, isStarted, Option.isSome_eq_false_iff, Option.isNone_iff_eq_none] at stopped
      exact absurd found (unknown stopped)
  | turns turns =>
      cases turns.switches with
      | lasts => exact .inl found
      | begins => cases found
      | ends => cases found
  | skips own on is | host host operates is =>
      rw [is] at found
      exact .inl found

theorem Foresees.sidelined (foresees : Foresees thread d d') (h : d.Regular) (sidelined : d.Sidelined thread) :
    d'.Sidelined thread := by
  intro id found
  obtain ⟨operates, flagged⟩ := foresees
  have kept (before : d.contextOf? thread = some id) : (d'.context id).ignored = true := by
    have standing := operates.standing (h.numbered.wellTracked.1.known before).1
    exact (congrArg (·.2.2.1) standing).trans (sidelined id before)
  rcases operates.origin h found with before | made
  · exact kept before
  · rcases flagged id found with before | flagged
    · exact kept before
    · exact made.trans flagged

theorem sidelined_of_foreseen (h : d₀.Regular) (unseen : d₀.contextOf? thread = none)
    (since : Relation.ReflTransGen (Foresees thread) d₀ d) : d.Regular ∧ d.Sidelined thread := by
  induction since with
  | refl =>
      refine ⟨h, fun id found => ?_⟩
      cases unseen.symm.trans found
  | tail _ foresees ih => exact ⟨foresees.1.regular ih.1, foresees.sidelined ih.1 ih.2⟩

/-! ## Events -/

/-- An event is dropped on arrival: its thread does not ask for the ticket, the front-end is not called, and the
contexts are as they were. -/
structure Drops (d : Debugger) (system : Nat) (event : Event) : Prop where
  dropped : (d.arrive system event).1 = none
  handled : ∀ {σ ε : Type} (front : FrontEnd σ ε) (state : σ), handleEvent front system event (d, state) =
    (.finished (.ok ()), (d.arrive system event).2, state)
  ticket : (d.arrive system event).2.ticket = d.ticket
  contexts : ∀ id < d.contexts.size, (d.arrive system event).2.context id = d.context id

theorem ignored_track {session : Session} (active : d.session = some session) (sidelined : d.Sidelined thread)
    (flagged : d.host.isDebuggerThread thread) :
    ((d.track session thread).2.context (d.track session thread).1).ignored = true := by
  simp only [track]
  split
  · next id found =>
      refine sidelined id ?_
      rw [contextOf?, active]
      exact found
  · have new := context_addContext_new { d with contextCount := d.contextCount + 1 }
      (.initial thread (d.contextCount + 1) (d.host.isDebuggerThread thread))
    exact (congrArg Context.ignored new).trans flagged

theorem dropped_of_sidelined (sidelined : d.Sidelined (d.currentThread system).1)
    (flagged : d.host.isDebuggerThread (d.currentThread system).1) (event : Event) :
    (d.arrive system event).1 = none := by
  have counted : ({ (d.currentThread system).2 with eventCount := d.eventCount + 1 } : Debugger).Sidelined
      (d.currentThread system).1 := sidelined
  have flagged' : (d.currentThread system).2.host.isDebuggerThread (d.currentThread system).1 = true := by
    rw [show (d.currentThread system).2.host.isDebuggerThread _ = _ from
      Host.Met.isDebuggerThread (.inr rfl) (d.currentThread system).1]
    exact flagged
  simp only [arrive]
  split
  · split
    · rfl
    · split
      · rfl
      · next session active =>
          have ignored := ignored_track (d := { (d.currentThread system).2 with eventCount := d.eventCount + 1 })
            active counted flagged'
          split
          · rfl
          · next heeded => exact absurd ignored heeded
  · rfl

theorem contexts_arrive (d : Debugger) (system : Nat) (event : Event) (known : id < d.contexts.size) :
    (d.arrive system event).2.context id = d.context id := by
  simp only [arrive]
  split
  · split
    · rfl
    · split
      · rfl
      · next session active =>
          have tracked : ((({ (d.currentThread system).2 with eventCount := d.eventCount + 1 } : Debugger).track session
              (d.currentThread system).1).2).context id = d.context id := by
            simp only [track]
            split
            · rfl
            · exact (opens_newContext _ _).old id known
          split <;> exact tracked
  · rfl

/-- The events of a thread of the front-end, if the host flagged the thread whenever the debugger made a context for
it since some moment at which it had none. -/
theorem drops_of_foreseen {settings : Settings} (before : History (.initial settings) d₀)
    (unseen : d₀.contextOf? thread = none) (since : Relation.ReflTransGen (Foresees thread) d₀ d)
    (flagged : d.host.isDebuggerThread thread) (current : (d.currentThread system).1 = thread) (event : Event) :
    d.Drops system event := by
  subst current
  obtain ⟨-, sidelined⟩ := sidelined_of_foreseen (History.regular before (regular_initial settings)) unseen since
  have dropped := dropped_of_sidelined sidelined flagged event
  refine ⟨dropped, fun front state => ?_, (d.tends_arrive system event).ticket,
    fun id known => d.contexts_arrive system event known⟩
  rw [handleEvent_eq]
  rcases arrived : d.arrive system event with ⟨_ | _, d'⟩
  · rfl
  · rw [arrived] at dropped
    cases dropped

def startedByMain : Debugger := (Request.debugger .start).serve 0 (initial .standard)

def flaggedEarly : Debugger :=
  { startedByMain with host := (startedByMain.host.currentThread 0).2.setDebuggerThread ⟨1, "main"⟩ }

theorem history_flaggedEarly : History (initial .standard) flaggedEarly := by
  have started : History (initial .standard) startedByMain := .single (.request _ (.debugger .start) 0)
  have met : History (initial .standard) (startedByMain.currentThread 0).2 := started.tail (.host (.current _ 0))
  refine met.tail (.host (.execute ?_))
  decide

theorem dropped_of_flaggedEarly : ∃ d, Relation.ReflTransGen (Foresees ⟨1, "main"⟩) flaggedEarly d ∧
    d.contextOf? ⟨1, "main"⟩ = some 0 ∧ d.Drops 0 World.lineEvent := by
  have listed : flaggedEarly.liveContexts = .ok ([0], (Request.debugger .contexts).serve 0 flaggedEarly) := rfl
  have since : Relation.ReflTransGen (Foresees ⟨1, "main"⟩) flaggedEarly
      ((Request.debugger .contexts).serve 0 flaggedEarly) := .single ⟨.list listed, fun _ _ => .inr rfl⟩
  exact ⟨_, since, rfl, drops_of_foreseen history_flaggedEarly rfl since rfl rfl World.lineEvent⟩

def flaggedLate : Debugger :=
  let d := (Request.debugger .interrupt).serve 0 startedByMain
  { d with host := d.host.setDebuggerThread ⟨1, "main"⟩ }

def countCalls : FrontEnd Nat Empty := fun _ _ => do
  Run.modifyFront (· + 1)
  return .ok ()

/-- The event of such a thread opens a frame and calls the front-end. -/
theorem called_of_flaggedLate : History (initial .standard) flaggedLate ∧
    flaggedLate.host.isDebuggerThread (flaggedLate.currentThread 0).1 ∧ ¬ flaggedLate.Drops 0 World.lineEvent ∧
    (handleEvent countCalls 0 World.lineEvent (flaggedLate, 0)).2.2 = 1 ∧
    (flaggedLate.context 0).depth = 0 ∧
    ((handleEvent countCalls 0 World.lineEvent (flaggedLate, 0)).2.1.context 0).depth = 1 := by
  have started : History (initial .standard) startedByMain := .single (.request _ (.debugger .start) 0)
  have seen : History (initial .standard) ((Request.debugger .interrupt).serve 0 startedByMain) :=
    started.tail (.request _ (.debugger .interrupt) 0)
  have flagged : History (initial .standard) flaggedLate := by
    refine seen.tail (.host (.execute ?_))
    decide
  refine ⟨flagged, rfl, fun drops => ?_, by decide +kernel, rfl, by decide +kernel⟩
  cases drops.dropped

end Debugger

end EventDebugger
