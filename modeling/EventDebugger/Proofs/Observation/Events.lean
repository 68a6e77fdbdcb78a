import EventDebugger.Proofs.Observation.Dispatch
import EventDebugger.Proofs.Observation.Tables

/-!
# Whole events under observation

Two recorders share what matters if they recorded the same but for traced lines, where these do not
matter. A line that only one of two debuggers traces makes one call more in that one, which adds a record
and changes nothing else.

* `Debugger.complete_line`: a line, traced or not, is done as one that is not traced.
* `Debugger.Shares.contendAndHandle`: an event of a thread that asks for the ticket is handled alike.
-/

namespace EventDebugger

/-! ## Records -/

def Record.isTrace : Record → Bool
  | .halt _ => false
  | .trace _ => true

namespace Recorder

def bare (traces : Bool) (r : Recorder) : Recorder :=
  { r with records := r.records.filter fun record => traces || !record.isTrace }

def Shares (traces : Bool) (r q : Recorder) : Prop := q = r.bare traces

variable {traces : Bool} {r q : Recorder}

theorem bare_add (r : Recorder) (record : Record) :
    (r.add record).bare traces =
      if traces || !record.isTrace then (r.bare traces).add record else r.bare traces := by
  simp only [bare, add, Array.filter_push]
  split <;> rfl

namespace Shares

theorem mode (h : r.Shares traces q) : q.mode = r.mode := congrArg (·.mode) h

theorem announced (h : r.Shares traces q) : q.announced = r.announced := congrArg (·.announced) h

theorem announce (h : r.Shares traces q) (announced : Option Announcement) :
    Shares traces { r with announced } { q with announced } := by
  have same := congrArg (fun r : Recorder => ({ r with announced } : Recorder)) h
  exact same

theorem add (h : r.Shares traces q) (record : Record) (matters : (traces || !record.isTrace) = true) :
    (r.add record).Shares traces (q.add record) := by
  rw [Shares, bare_add, if_pos matters, h]

theorem traced (h : r.Shares false q) (record : TraceRecord) : (r.add (.trace record)).Shares false q := by
  rw [Shares, bare_add]
  exact h

end Shares

end Recorder

/-! ## Bare contexts -/

theorem Results.of_map_eq {ε α β γ : Type} {f : α → γ} {g : β → γ} {x : Except ε α} {y : Except ε β}
    (same : y.map g = x.map f) : Results (fun a b => g b = f a) x y := by
  cases x with
  | error error =>
      cases y with
      | error error' => exact Except.error.inj same ▸ .error _
      | ok b => cases same
  | ok a =>
      cases y with
      | error error => cases same
      | ok b => exact .ok (Except.ok.inj same)

namespace Context

variable {traces : Bool}

theorem frame_bare (context : Context) (index : Int) :
    (context.bare traces).frame index = (context.frame index).map Frame.bare := by
  unfold frame
  rw [depth_bare]
  rcases checkFrame index context.depth with _ | i
  · rfl
  · have own : (context.bare traces).stack[i]? = context.stack[i]?.map Frame.bare := List.getElem?_map
    simp only [bind, Except.bind, own]
    cases context.stack[i]? <;> rfl

theorem haltRecord_bare (scopes : Scopes) (position : Position) (announced : Option Announcement)
    (context : Context) :
    Recorder.haltRecord scopes position announced (context.bare traces) =
      Recorder.haltRecord scopes position announced context := by
  have reason : (context.bare traces).stopReason = context.stopReason := rfl
  unfold Recorder.haltRecord
  rw [frame_bare, depth_bare, reason]
  cases context.frame 0 <;> rfl

theorem step_bare (n : Int) (force : Bool) (context : Context) :
    (context.bare traces).step n force = (context.step n force).map (bare traces) := by
  unfold step
  cases checkSteps n <;> rfl

theorem command_bare (mode : ResumeMode) (context : Context) :
    mode.command (context.bare traces) = (mode.command context).map (bare traces) := by
  cases mode with
  | «continue» => rfl
  | step =>
      exact context.step_bare 1 false
  | next =>
      change (context.bare traces).stepOver 1 none false = (context.stepOver 1 none false).map (bare traces)
      unfold stepOver
      rw [isEmpty_bare, depth_bare]
      cases checkSteps 1 with
      | error error => rfl
      | ok n => cases context.stack.isEmpty <;> rfl
  | finish =>
      change (context.bare traces).stopFrame 0 = (context.stopFrame 0).map (bare traces)
      unfold stopFrame
      rw [depth_bare]
      cases checkFrame 0 context.depth <;> rfl

end Context

/-! ## The recorder -/

structure Indistinct {α : Type} (traces : Bool) (x y : α × Debugger × Recorder) : Prop where
  value : y.1 = x.1
  debuggers : x.2.1.Shares traces y.2.1
  recorders : x.2.2.Shares traces y.2.2

section Recorder

variable {traces : Bool} {d e : Debugger} {r q : Recorder} (h : d.Shares traces e) (alike : r.Shares traces q)
include h alike

theorem Recorder.Shares.onHalt (id : ContextId) (position : Position) :
    Indistinct traces (Recorder.onHalt id position (d, r)) (Recorder.onHalt id position (e, q)) := by
  have taken := alike.announce none
  have recorded : e.inspect id (Recorder.haltRecord e.host.scopes position q.announced) =
      d.inspect id (Recorder.haltRecord d.host.scopes position r.announced) := by
    rw [h.host, alike.announced]
    exact h.inspect_eq id fun _ context => context.haltRecord_bare ..
  rw [Recorder.onHalt_eq, Recorder.onHalt_eq, recorded]
  split
  · exact ⟨rfl, h, taken⟩
  · next record _ =>
      have added := taken.add (.halt record) (Bool.or_true _)
      have commanded := h.command id (f := r.mode.command) (g := r.mode.command) (.of_map_eq (by
        rw [← Context.command_bare, ← Context.command_bare, h.context]))
      simp only [Recorder.add, alike.mode] at added ⊢
      generalize d.command id _ = x at commanded ⊢
      generalize e.command id _ = y at commanded ⊢
      cases commanded with
      | error error => exact ⟨rfl, h, added⟩
      | ok shares => exact ⟨rfl, shares, added⟩

theorem Recorder.Shares.onTrace (matter : traces = true) (id : ContextId) (position : Position) :
    Indistinct traces (Recorder.onTrace id position (d, r)) (Recorder.onTrace id position (e, q)) := by
  have traced (traces : Bool) (context : Context) :
      (Except.ok ⟨(context.bare traces).number, position, (context.bare traces).depth⟩ :
        Except Error TraceRecord) = .ok ⟨context.number, position, context.depth⟩ := by
    rw [context.depth_bare]
    rfl
  rw [Recorder.onTrace_eq, Recorder.onTrace_eq, h.inspect_eq id traced]
  split
  · exact ⟨rfl, h, alike⟩
  · next record _ => exact ⟨rfl, h, alike.add (.trace record) (Bool.or_eq_true_iff.mpr (.inl matter))⟩

theorem Recorder.Shares.frontEnd (system : Nat) (callback : Callback)
    (matter : (∃ id position, callback = .tracing id position) → traces = true) :
    Indistinct traces (Recorder.frontEnd system callback (d, r))
      (Recorder.frontEnd system callback (e, q)) := by
  cases callback with
  | line id position => exact alike.onHalt h id position
  | tracing id position => exact alike.onTrace h (matter ⟨id, position, rfl⟩) id position
  | breakpoint id bp => exact ⟨rfl, h, alike.announce _⟩
  | catchpoint id exception => exact ⟨rfl, h, alike.announce _⟩

theorem Recorder.Shares.drive (system : Nat) {id : ContextId} {o : Outcome} (about : o.About id)
    (untraced : traces = false → o.rank ≤ 2) (n : Nat) :
    Indistinct traces (o.drive Recorder.frontEnd system id n (d, r))
      (o.drive Recorder.frontEnd system id n (e, q)) := by
  induction n generalizing o d e r q with
  | zero => cases o <;> exact ⟨rfl, h, alike⟩
  | succ n ih =>
      cases o with
      | done => exact ⟨rfl, h, alike⟩
      | call callback next =>
          have called := alike.frontEnd h system callback (by
            rintro ⟨other, position, rfl⟩
            cases traces with
            | true => rfl
            | false =>
                -- The call for a traced line has two more behind it.
                cases about
                exact absurd (untraced rfl) (Nat.not_le_of_lt (Nat.lt_succ_self 2)))
          rw [drive_call, drive_call]
          generalize Recorder.frontEnd system callback (d, r) = x at called ⊢
          generalize Recorder.frontEnd system callback (e, q) = y at called ⊢
          obtain ⟨_, d', r'⟩ := x
          obtain ⟨result, e', q'⟩ := y
          obtain ⟨same, shares, alike'⟩ := called
          obtain rfl := same
          cases result with
          | error error => exact ⟨rfl, shares, alike'⟩
          | ok =>
              obtain ⟨same, shares'⟩ := shares.run system id next
              have fewer := next.rank_run_lt d' system id
              dsimp only at same ⊢
              rw [same]
              refine ih shares' alike' (next.about_run d' system id) fun off => ?_
              exact Nat.le_of_lt (Nat.lt_of_lt_of_le fewer (untraced off))

end Recorder

/-! ## Events -/

theorem drive_eq_complete {σ ε : Type} (front : FrontEnd σ ε) (system : Nat) (id : ContextId) {n : Nat}
    {o : Outcome} (enough : o.rank ≤ n) (s : Debugger × σ) :
    o.drive front system id n s = o.complete front system id s := by
  induction n using Nat.strongRecOn generalizing o s with
  | _ n ih =>
      cases o with
      | done => exact (drive_done front system s.1 s.2 id n).trans (drive_done front system s.1 s.2 id 0).symm
      | call callback next =>
          obtain ⟨d, state⟩ := s
          obtain ⟨k, rank⟩ : ∃ k, next.rank = k + 1 := by cases next <;> exact ⟨_, rfl⟩
          have enough : next.rank ≤ n := enough
          obtain ⟨n, rfl⟩ : ∃ m, n = m + 1 := Nat.exists_eq_add_of_le' (by omega)
          have first : Outcome.complete front system id (.call callback next) (d, state) =
              Outcome.drive front system id (k + 1) (.call callback next) (d, state) := by
            unfold Outcome.complete
            rw [← rank]
            rfl
          rw [first, drive_call, drive_call]
          rcases front system callback (d, state) with ⟨_ | _, d', state'⟩
          · rfl
          · have fewer := next.rank_run_lt d' system id
            dsimp only
            rw [ih n (by omega) (by omega), ih k (by omega) (by omega)]

theorem handlePostMortem_eq {σ ε : Type} (front : FrontEnd σ ε) (system : Nat) (kept : PostMortem)
    (d : Debugger) (state : σ) : handlePostMortem front system kept (d, state) =
      if (d.context kept.context).stack.isEmpty then (.ok (), d, state)
      else
        match d.enterPostMortem system with
        | (.error error, d) => (.error (.debugger error), d, state)
        | (.ok before, d) =>
            let visited := front system (.line kept.context kept.position) (d, state)
            match visited.2.1.leavePostMortem system before with
            | (.error error, d) => (.error (.debugger error), d, visited.2.2)
            | (.ok (), d) => (visited.1.mapError .frontEnd, d, visited.2.2) := by
  change (if (d.context kept.context).stack.isEmpty then _ else _ : Run σ (HookResult ε)) (d, state) = _
  split
  · rfl
  · rw [run_bind_eq, Run.onDebugger]
    rcases d.enterPostMortem system with ⟨_ | before, d'⟩
    · rfl
    · dsimp only
      rw [run_bind_eq, run_bind_eq, Run.onDebugger]
      generalize front system (.line kept.context kept.position) (d', state) = visited
      rcases visited.2.1.leavePostMortem system before with ⟨_ | _, d''⟩ <;> rfl

namespace Debugger

theorem complete_line {d : Debugger} {id : ContextId} {event : Event} {position : Position}
    (active : d.isStarted) (heeded : (d.context id).skipped = false) (at' : event.position = some position)
    (kind : event.kind = .line false) (system : Nat) (r : Recorder) :
    let piece := d.dispatch system id event
    let checked := (d.placed system id event position).checkLine system id position event.receiver
      (decide ((d.context id).lastPosition ≠ some position))
    ∃ r', (∀ q, r.Shares false q → r'.Shares false q) ∧
      piece.1.complete Recorder.frontEnd system id (piece.2, r) =
        checked.1.complete Recorder.frontEnd system id (checked.2, r') := by
  have started : (d.placed system id event position).isStarted := by
    have same : (d.placed system id event position).session = d.session := by
      unfold Debugger.placed
      dsimp only
      split
      · split <;> rfl
      · rfl
    unfold isStarted
    rw [same]
    exact active
  dsimp only
  rw [dispatch_line system id event position d heeded at' kind]
  dsimp only
  generalize d.placed system id event position = d' at started ⊢
  split
  · refine ⟨r.add (.trace ⟨(d'.context id).number, position, (d'.context id).depth⟩), ?_, ?_⟩
    · exact fun _ alike => alike.traced _
    unfold Outcome.complete
    rw [Outcome.rank, Continuation.rank, Recorder.drive_traced, Recorder.onTrace_eq]
    unfold inspect
    rw [if_pos started]
    have enough := d'.rank_checkLine_le system id position event.receiver
      (decide ((d.context id).lastPosition ≠ some position))
    exact drive_eq_complete Recorder.frontEnd system id enough _
  · exact ⟨r, fun _ alike => alike, rfl⟩

namespace Alone

variable {d : Debugger} {system : Nat} {thread : Thread}

theorem dispatch (h : d.Alone system thread) (id : ContextId) (event : Event) :
    (d.dispatch system id event).2.Alone system thread := by
  rcases d.dispatch_cases system id event with touched | ⟨-, ended, -, met⟩
  · exact h.of_touches touched
  · exact h.of_ended (met.eq_of_bound h.bound) ended

theorem frontEnd (h : d.Alone system thread) (r : Recorder) (callback : Callback) :
    (Recorder.frontEnd system callback (d, r)).2.1.Alone system thread := by
  cases callback with
  | line id position =>
      change (Recorder.onHalt id position (d, r)).2.1.Alone system thread
      exact h.of_touches (Recorder.records_onHalt d r id position system).1.touches
  | tracing id position =>
      change (Recorder.onTrace id position (d, r)).2.1.Alone system thread
      exact h.of_touches (Recorder.records_onTrace d r id position system).1.touches
  | breakpoint id bp => exact h
  | catchpoint id exception => exact h

theorem drive (h : d.Alone system thread) (r : Recorder) (id : ContextId) (n : Nat) (o : Outcome) :
    (o.drive Recorder.frontEnd system id n (d, r)).2.1.Alone system thread := by
  induction n generalizing o d r with
  | zero => cases o <;> exact h
  | succ n ih =>
      cases o with
      | done => exact h
      | call callback next =>
          have called := h.frontEnd r callback
          rw [drive_call]
          generalize Recorder.frontEnd system callback (d, r) = x at called ⊢
          obtain ⟨_ | _, d', r'⟩ := x
          · exact called
          · exact ih (called.of_touches (d'.touches_run system id next)) r' _

theorem handleWithTicket (h : d.Alone system thread) (r : Recorder) (id : ContextId) (event : Event) :
    (handleWithTicket Recorder.frontEnd system id event (d, r)).2.1.Alone system thread :=
  ((h.dispatch id event).drive r id _ _).release

theorem contendAndHandle (h : d.Alone system thread) (r : Recorder) (other : Thread) (id : ContextId)
    (event : Event) (granted : Bool) :
    (contendAndHandle Recorder.frontEnd system other id event granted (d, r)).2.1.Alone system thread := by
  have asked := h.contend other id granted
  rw [contendAndHandle_eq]
  generalize d.contend other id granted = x at asked ⊢
  obtain ⟨_ | _ | _, d'⟩ := x
  · exact asked.handleWithTicket r id event
  · exact asked
  · exact asked

end Alone

namespace Shares

variable {traces : Bool} {d e : Debugger} {r q : Recorder} {system : Nat} {thread : Thread}

theorem complete {x y : Outcome × Debugger} (both : Both traces x y) (alike : r.Shares traces q)
    (system : Nat) {id : ContextId} (about : x.1.About id) (untraced : traces = false → x.1.rank ≤ 2) :
    Indistinct traces (x.1.complete Recorder.frontEnd system id (x.2, r))
      (y.1.complete Recorder.frontEnd system id (y.2, q)) := by
  rw [both.same]
  exact alike.drive both.shares system about untraced _

section

variable (h : d.Shares traces e) (alike : r.Shares traces q) (alone : d.Alone system thread)
include h alike alone

theorem handleWithTicket (active : d.isStarted) (id : ContextId) (event : Event) :
    Indistinct traces (handleWithTicket Recorder.frontEnd system id event (d, r))
      (handleWithTicket Recorder.frontEnd system id event (e, q)) := by
  have handled : Indistinct traces
      ((d.dispatch system id event).1.complete Recorder.frontEnd system id ((d.dispatch system id event).2, r))
      ((e.dispatch system id event).1.complete Recorder.frontEnd system id ((e.dispatch system id event).2, q)) := by
    have about := d.about_dispatch system id event
    by_cases plain : (d.context id).skipped = false ∧ event.position.isSome ∧ event.kind = .line false
    · cases traces with
      | true => exact complete (h.dispatch alone.bound id event fun _ _ _ => rfl) alike system about nofun
      | false =>
          -- Only the first debugger may trace this line, which is recorded and makes no other difference.
          obtain ⟨heeded, some, kind⟩ := plain
          obtain ⟨position, at'⟩ := Option.isSome_iff_exists.mp some
          have skipped : (e.context id).skipped = (d.context id).skipped :=
            h.reads id (·.skipped) fun _ _ => rfl
          have last : (e.context id).lastPosition = (d.context id).lastPosition :=
            h.reads id (·.lastPosition) fun _ _ => rfl
          have placed := h.placed alone.bound id event position
          obtain ⟨r', recorded, done⟩ := complete_line active heeded at' kind system r
          rw [done, dispatch_line system id event position e (skipped.trans heeded) at' kind]
          simp only [placed.tracing, placed.tracing_context, Bool.false_and, Bool.or_self,
            Bool.false_eq_true, if_false, last]
          exact complete (placed.checkLine system id position event.receiver _) (recorded q alike) system
            (about_checkLine ..) fun _ => rank_checkLine_le ..
    · refine complete (h.dispatch alone.bound id event fun heeded some kind => ?_) alike system about fun _ => ?_
      · exact absurd ⟨heeded, some, kind⟩ plain
      · exact d.rank_dispatch_le system id fun heeded some kind => plain ⟨heeded, some, kind⟩
  have alone' := (alone.dispatch id event).drive r id (d.dispatch system id event).1.rank
    (d.dispatch system id event).1
  exact ⟨handled.value, handled.debuggers.release alone', handled.recorders⟩

theorem contendAndHandle (other : Thread) (id : ContextId) (event : Event) (granted : Bool) :
    Indistinct traces (contendAndHandle Recorder.frontEnd system other id event granted (d, r))
      (contendAndHandle Recorder.frontEnd system other id event granted (e, q)) := by
  obtain ⟨turn, asked⟩ := h.contend other id granted
  have alone' := alone.contend other id granted
  have active : (d.contend other id granted).1 = .ticket → (d.contend other id granted).2.isStarted := by
    intro got
    have contended := d.contended other id granted
    rw [got] at contended
    rw [isStarted_eq]
    generalize (d.contend other id granted).2.ticket = ticket at contended ⊢
    generalize d.ticket = before at contended
    cases contended <;> rfl
  rw [contendAndHandle_eq, contendAndHandle_eq]
  generalize d.contend other id granted = x at turn asked alone' active ⊢
  generalize e.contend other id granted = y at turn asked ⊢
  obtain ⟨_, d'⟩ := x
  obtain ⟨turn', e'⟩ := y
  obtain rfl := turn
  cases turn' with
  | ticket =>
      have handled := asked.handleWithTicket alike alone' (active rfl) id event
      exact ⟨congrArg Progress.finished handled.value, handled.debuggers, handled.recorders⟩
  | dropped => exact ⟨rfl, asked, alike⟩
  | wait reason =>
      have wakeups : e'.wakeups = d'.wakeups := congrArg (·.wakeups) asked
      exact ⟨congrArg (Progress.waiting ⟨system, other, id, event, reason, ·⟩) wakeups, asked, alike⟩

end

theorem isAwake (h : d.Shares traces e) (pending : PendingEvent) : e.isAwake pending = d.isAwake pending := by
  have wakeups : e.wakeups = d.wakeups := congrArg (·.wakeups) h
  have ended : e.isOver pending.thread pending.context pending.waiting =
      d.isOver pending.thread pending.context pending.waiting := by
    unfold isOver
    rw [h.session, h.reads pending.context (·.suspended) fun _ _ => rfl]
  unfold Debugger.isAwake
  rw [wakeups, ended]

theorem handlePostMortem (h : d.Shares traces e) (alike : r.Shares traces q) (system : Nat)
    (kept : PostMortem) : Indistinct traces (handlePostMortem Recorder.frontEnd system kept (d, r))
      (handlePostMortem Recorder.frontEnd system kept (e, q)) := by
  have empty : (e.context kept.context).stack.isEmpty = (d.context kept.context).stack.isEmpty :=
    h.reads kept.context (·.stack.isEmpty) fun _ => Context.isEmpty_bare
  obtain ⟨entered, before⟩ := h.enterPostMortem system
  rw [handlePostMortem_eq, handlePostMortem_eq, empty]
  generalize d.enterPostMortem system = x at entered before ⊢
  generalize e.enterPostMortem system = y at entered before ⊢
  split
  · exact ⟨rfl, h, alike⟩
  obtain ⟨_, d'⟩ := x
  obtain ⟨_, e'⟩ := y
  cases before with
  | error error => exact ⟨rfl, entered, alike⟩
  | @ok before before' same =>
      have visited := alike.frontEnd entered system (.line kept.context kept.position) nofun
      dsimp only
      generalize Recorder.frontEnd system (.line kept.context kept.position) (d', r) = x at visited ⊢
      generalize Recorder.frontEnd system (.line kept.context kept.position) (e', q) = y at visited ⊢
      obtain ⟨answered, left⟩ := visited.debuggers.leavePostMortem system same
      generalize x.2.1.leavePostMortem system before = u at answered left ⊢
      generalize y.2.1.leavePostMortem system before' = v at answered left ⊢
      obtain ⟨_, d''⟩ := u
      obtain ⟨result, e''⟩ := v
      obtain rfl := answered
      cases result with
      | error error => exact ⟨rfl, left, visited.recorders⟩
      | ok => exact ⟨congrArg (Except.mapError HookError.frontEnd) visited.value, left, visited.recorders⟩

end Shares

end Debugger

end EventDebugger
