import EventDebugger.Proofs.Calls
import EventDebugger.Proofs.Schedule.Dispatch
import EventDebugger.Proofs.Ticket.Untouched
import EventDebugger.Recorder

/-!
# The recorder during an event

The recorder only adds records of the context that it is called on, and an announcement is used up by
the halt that follows it. In two runs that are alike it records the same but for the number of the
context.

* `touches_drive`, `adds_drive`: an event with the recorder as the front-end.
* `alike_drive`: the same event in two runs.
-/

namespace EventDebugger

namespace Record

def number : Record → Nat
  | .halt record => record.number
  | .trace record => record.number

def unnumbered : Record → Record
  | .halt record => .halt { record with number := 0 }
  | .trace record => .trace { record with number := 0 }

end Record

namespace Recorder

structure Adds (number : Nat) (a b : Recorder) (new : List Record) : Prop where
  mode : b.mode = a.mode
  records : b.records.toList = a.records.toList ++ new
  numbered : ∀ record ∈ new, record.number = number

theorem Adds.refl (number : Nat) (a : Recorder) : a.Adds number a [] :=
  ⟨rfl, (List.append_nil _).symm, fun _ member => by cases member⟩

theorem Adds.trans {number : Nat} {a b c : Recorder} {new new' : List Record}
    (first : a.Adds number b new) (second : b.Adds number c new') : a.Adds number c (new ++ new') := by
  refine ⟨second.mode.trans first.mode, ?_, fun record member => ?_⟩
  · rw [second.records, first.records, List.append_assoc]
  · rcases List.mem_append.mp member with member | member
    · exact first.numbered record member
    · exact second.numbered record member

theorem adds_announced (number : Nat) (a : Recorder) (announced : Option Announcement) :
    a.Adds number { a with announced } [] := ⟨rfl, (List.append_nil _).symm, fun _ member => by cases member⟩

theorem adds_add (a : Recorder) {number : Nat} (record : Record) (same : record.number = number) :
    a.Adds number (a.add record) [record] :=
  ⟨rfl, Array.toList_push, fun _ member => by rw [List.mem_singleton.mp member, same]⟩

end Recorder

/-! ## The calls of the recorder -/

theorem Run.perform_eq {σ : Type} (f : Debugger → Except Error Debugger) (d : Debugger) (state : σ) :
    Run.perform f (d, state) =
      match f d with
      | .error error => (.error error, d, state)
      | .ok d => (.ok (), d, state) := by
  cases changed : f d <;> simp [perform, attempt, onDebugger, changed, Except.map]

namespace Recorder

variable (d : Debugger) (r : Recorder) (id : ContextId) (position : Position)

theorem onHalt_eq : onHalt id position (d, r) =
    match d.inspect id (haltRecord d.host.scopes position r.announced) with
    | .error error => (.error error, d, { r with announced := none })
    | .ok record =>
        let r := { r with announced := none }.add (.halt record)
        match d.command id r.mode.command with
        | .error error => (.error error, d, r)
        | .ok d => (.ok (), d, r) := by
  unfold onHalt
  change (match d.inspect id (haltRecord d.host.scopes position r.announced) with
    | .error error => _
    | .ok record => _ : Run Recorder (Except Error Unit)) (d, { r with announced := none }) = _
  cases d.inspect id (haltRecord d.host.scopes position r.announced) with
  | error error => rfl
  | ok record =>
      change Run.perform (fun d => d.command id r.mode.command)
        (d, { r with announced := none }.add (.halt record)) = _
      rw [Run.perform_eq]
      rfl

theorem onTrace_eq : onTrace id position (d, r) =
    match d.inspect id fun context => .ok (⟨context.number, position, context.depth⟩ : TraceRecord) with
    | .error error => (.error error, d, r)
    | .ok record => (.ok (), d, r.add (.trace record)) := by
  unfold onTrace
  change (match d.inspect id fun context => .ok (⟨context.number, position, context.depth⟩ : TraceRecord) with
    | .error error => _
    | .ok record => _ : Run Recorder (Except Error Unit)) (d, r) = _
  cases d.inspect id fun context => .ok (⟨context.number, position, context.depth⟩ : TraceRecord) <;> rfl

theorem number_haltRecord {scopes : Scopes} {announced : Option Announcement} {context : Context}
    {record : HaltRecord} (h : haltRecord scopes position announced context = .ok record) :
    record.number = context.number := by
  obtain ⟨frame, _, made⟩ := except_bind_eq_ok h
  cases made
  rfl

theorem traits_command (mode : ResumeMode) {context context' : Context}
    (h : mode.command context = .ok context') : context'.traits = context.traits := by
  cases mode with
  | «continue» =>
      cases h
      rfl
  | step =>
      obtain ⟨_, _, changed⟩ := except_bind_eq_ok h
      cases changed
      rfl
  | next =>
      obtain ⟨_, _, h⟩ := except_bind_eq_ok h
      simp only at h
      split at h
      · cases h
      · cases h
        rfl
  | finish =>
      obtain ⟨_, _, changed⟩ := except_bind_eq_ok h
      cases changed
      rfl

theorem touches_command (system : Nat) {d d' : Debugger} {id : ContextId} {f : Context → Except Error Context}
    (hf : ∀ {context context'}, f context = .ok context' → context'.traits = context.traits)
    (h : d.command id f = .ok d') : Debugger.Touches system id d d' := by
  obtain ⟨context, found, changed⟩ := except_bind_eq_ok h
  cases changed
  have traits : context.traits = (d.context id).traits := by
    unfold Debugger.inspect at found
    split at found
    · exact hf found
    · cases found
  refine ⟨rfl, .refl _ _, Nat.le_of_eq (d.size_updateContext id _).symm,
    fun other _ ne => d.context_updateContext_ne _ ne, fun other known => ?_,
    fun _ => ⟨rfl, d.size_updateContext id _⟩⟩
  by_cases same : other = id
  · subst same
    rw [d.context_updateContext_self _ known, traits]
  · rw [d.context_updateContext_ne _ same]

structure Records (system : Nat) (id : ContextId) (before after : Debugger × Recorder) : Prop where
  touches : Debugger.Touches system id before.1 after.1
  adds : ∃ new, before.2.Adds (before.1.context id).number after.2 new

theorem Records.trans {system : Nat} {id : ContextId} {a b c : Debugger × Recorder}
    (known : id < a.1.contexts.size) (first : Records system id a b) (second : Records system id b c) :
    Records system id a c := by
  obtain ⟨new, adds⟩ := first.adds
  obtain ⟨new', adds'⟩ := second.adds
  have number : (b.1.context id).number = (a.1.context id).number :=
    congrArg (·.2.1) (first.touches.traits id known)
  rw [number] at adds'
  exact ⟨first.touches.trans second.touches, new ++ new', adds.trans adds'⟩

theorem Records.of_touches {system : Nat} {id : ContextId} {d d' : Debugger}
    (touches : Debugger.Touches system id d d') (r : Recorder) (announced : Option Announcement) :
    Records system id (d, r) (d', { r with announced }) :=
  ⟨touches, [], r.adds_announced _ announced⟩

theorem records_onHalt (system : Nat) :
    Records system id (d, r) (onHalt id position (d, r)).2 ∧
      (onHalt id position (d, r)).2.2.announced = none := by
  have taken := r.adds_announced (d.context id).number none
  rw [onHalt_eq]
  split
  · exact ⟨⟨.refl _ _ _, [], taken⟩, rfl⟩
  · next record found =>
      have number : record.number = (d.context id).number := by
        unfold Debugger.inspect at found
        split at found
        · exact number_haltRecord position found
        · cases found
      have added := taken.trans (adds_add { r with announced := none } (.halt record) number)
      simp only
      split
      · exact ⟨⟨.refl _ _ _, _, added⟩, rfl⟩
      · next commanded => exact ⟨⟨touches_command system (traits_command r.mode) commanded, _, added⟩, rfl⟩

theorem records_onTrace (system : Nat) :
    Records system id (d, r) (onTrace id position (d, r)).2 ∧
      (onTrace id position (d, r)).2.2.announced = r.announced := by
  rw [onTrace_eq]
  unfold Debugger.inspect
  split
  · exact ⟨⟨.refl _ _ _, [], .refl _ r⟩, rfl⟩
  · next record found =>
      split at found
      · cases found
        exact ⟨⟨.refl _ _ _, _, adds_add r (.trace _) rfl⟩, rfl⟩
      · cases found

/-! ## An event -/

variable (system n : Nat)

theorem drive_halted : Outcome.drive frontEnd system id (n + 1) (.call (.line id position) .resumed) (d, r) =
    ((onHalt id position (d, r)).1.mapError .frontEnd, (onHalt id position (d, r)).2) := by
  have calls : frontEnd system (.line id position) = onHalt id position := rfl
  rw [drive_call, calls]
  rcases onHalt id position (d, r) with ⟨_ | _, d, r⟩
  · rfl
  · exact drive_done ..

theorem drive_announced {callback : Callback} {announcement : Announcement}
    (announces : frontEnd system callback = announce announcement) (next : Continuation) :
    Outcome.drive frontEnd system id (n + 1) (.call callback next) (d, r) =
      (next.run d system id).1.drive frontEnd system id n
        ((next.run d system id).2, { r with announced := some announcement }) := by
  rw [drive_call, announces]
  rfl

theorem drive_traced (next : Continuation) :
    Outcome.drive frontEnd system id (n + 1) (.call (.tracing id position) next) (d, r) =
      match onTrace id position (d, r) with
      | (.error error, d, r) => (.error (.frontEnd error), d, r)
      | (.ok (), d, r) => (next.run d system id).1.drive frontEnd system id n ((next.run d system id).2, r) := by
  have calls : frontEnd system (.tracing id position) = onTrace id position := rfl
  rw [drive_call, calls]
  rcases onTrace id position (d, r) with ⟨_ | _, d, r⟩ <;> rfl

theorem records_announced (known : id < d.contexts.size) {callback : Callback}
    {announcement : Announcement} {next : Continuation}
    (announces : frontEnd system callback = announce announcement)
    (halts : (next.run d system id).1 = .call (.line id position) .resumed) :
    Records system id (d, r) (Outcome.drive frontEnd system id (n + 2) (.call callback next) (d, r)).2 ∧
      (Outcome.drive frontEnd system id (n + 2) (.call callback next) (d, r)).2.2.announced = none := by
  obtain ⟨records, used⟩ := records_onHalt (next.run d system id).2 { r with announced := some announcement }
    id position system
  rw [drive_announced _ _ _ _ _ announces, halts, drive_halted]
  exact ⟨(Records.of_touches (d.touches_run system id next) r _).trans known records, used⟩

theorem records_drive {o : Outcome} (about : o.About id) (enough : o.rank ≤ n)
    (known : id < d.contexts.size) (settled : r.announced = none) :
    Records system id (d, r) (o.drive frontEnd system id n (d, r)).2 ∧
      (o.drive frontEnd system id n (d, r)).2.2.announced = none := by
  induction n generalizing o d r with
  | zero =>
      cases about with
      | done =>
          rw [drive_done]
          exact ⟨.of_touches (.refl _ _ _) r r.announced, settled⟩
      | _ => cases enough
  | succ n ih =>
      cases about with
      | done =>
          rw [drive_done]
          exact ⟨.of_touches (.refl _ _ _) r r.announced, settled⟩
      | halted position =>
          rw [drive_halted]
          exact records_onHalt d r id position system
      | breakpoint bp position onLine =>
          obtain ⟨n, rfl⟩ := Nat.exists_eq_add_of_le' (Nat.le_of_succ_le_succ enough)
          exact records_announced d r id position system n known rfl (d.outcome_haltAt id position onLine)
      | catchpoint exception position receiver binding =>
          obtain ⟨n, rfl⟩ := Nat.exists_eq_add_of_le' (Nat.le_of_succ_le_succ enough)
          exact records_announced d r id position system n known rfl rfl
      | traced position receiver moved =>
          obtain ⟨traced, kept⟩ := records_onTrace d r id position system
          rw [settled] at kept
          rw [drive_traced]
          generalize onTrace id position (d, r) = after at traced kept ⊢
          rcases after with ⟨_ | _, d', r'⟩
          · exact ⟨traced, kept⟩
          · have known' := Nat.lt_of_lt_of_le known traced.touches.size
            have touched := d'.touches_run system id (.lineTraced position receiver moved)
            have fewer : (Continuation.run (.lineTraced position receiver moved) d' system id).1.rank ≤ n :=
              Nat.le_of_lt_succ (Nat.lt_of_lt_of_le (Continuation.rank_run_lt _ d' system id) enough)
            obtain ⟨records, used⟩ := ih _ r' (Continuation.about_run _ d' system id) fewer
              (Nat.lt_of_lt_of_le known' touched.size) kept
            refine ⟨traced.trans known ?_, used⟩
            exact (Records.of_touches touched r' r'.announced).trans known' records

end Recorder

/-! ## The same event in two runs -/

inductive Results {ε α β : Type} (r : α → β → Prop) : Except ε α → Except ε β → Prop
  | error (error : ε) : Results r (.error error) (.error error)
  | ok {x : α} {y : β} (related : r x y) : Results r (.ok x) (.ok y)

theorem Results.bind {ε α β α' β' : Type} {r : α → β → Prop} {r' : α' → β' → Prop} {x : Except ε α}
    {y : Except ε β} {f : α → Except ε α'} {g : β → Except ε β'} (h : Results r x y)
    (next : ∀ {a b}, r a b → Results r' (f a) (g b)) : Results r' (x >>= f) (y >>= g) := by
  cases h with
  | error error => exact .error error
  | ok related => exact next related

theorem Results.same {ε α : Type} (x : Except ε α) : Results (· = ·) x x := by
  cases x with
  | error error => exact .error error
  | ok x => exact .ok rfl

namespace Context.Alike

variable {m : Matching} {a b : Context} (h : a.Alike m b)
include h

theorem frame (index : Int) : Results (Frame.Alike m) (a.frame index) (b.frame index) := by
  have frames := h.frames
  unfold Context.frame
  rw [h.depth_eq]
  refine (Results.same (checkFrame index a.depth)).bind fun {i j} same => ?_
  subst same
  cases own : a.stack[i]? with
  | none =>
      have size : a.stack.length ≤ i := List.getElem?_eq_none_iff.mp own
      rw [frames.length_eq] at size
      simp only [List.getElem?_eq_none_iff.mpr size]
      exact .error _
  | some frame =>
      obtain ⟨known, rfl⟩ := List.getElem?_eq_some_iff.mp own
      have known' := known
      rw [frames.length_eq] at known'
      simp only [List.getElem?_eq_getElem known']
      exact .ok (frames.get known known')

theorem haltRecord {s s' : Scopes} (scopes : s.Alike m s') (position : Position)
    (announced : Option Announcement) :
    Results (fun x y => (Record.halt y).unnumbered = (Record.halt x).unnumbered)
      (Recorder.haltRecord s position announced a) (Recorder.haltRecord s' position announced b) := by
  refine (h.frame 0).bind fun {x y} frame => ?_
  have locals := frame.visibleLocals_eq scopes
  have method : y.method = x.method := by cases frame; rfl
  have depth := h.depth_eq
  refine .ok ?_
  simp only [locals, method, depth, Record.unnumbered]
  cases h
  rfl

theorem command (mode : ResumeMode) : Results (Alike m) (mode.command a) (mode.command b) := by
  cases mode with
  | «continue» => exact .ok h
  | step =>
      refine (Results.same (checkSteps 1)).bind fun {n n'} same => ?_
      subst same
      exact .ok (h.map (f := fun context => { context with stopNext := .armed n, forced := false })
        (fun _ _ _ => rfl) fun _ => rfl)
  | next =>
      change Results (Alike m) (a.stepOver 1 none false) (b.stepOver 1 none false)
      unfold stepOver
      rw [h.isEmpty_eq, h.depth_eq]
      refine (Results.same (checkSteps 1)).bind fun {n n'} same => ?_
      subst same
      simp only
      split
      · exact .error _
      · exact .ok (h.map (f := fun context => { context with
          stopLine := .armed n, stepped := false, targetDepth := some (a.depth - 0), forced := false })
          (fun _ _ _ => rfl) fun _ => rfl)
  | finish =>
      change Results (Alike m) (a.stopFrame 0) (b.stopFrame 0)
      unfold stopFrame
      rw [h.depth_eq]
      refine (Results.same (checkFrame 0 a.depth)).bind fun {i j} same => ?_
      subst same
      exact .ok (h.map (f := fun context => { context with finishDepth := some (a.depth - i) })
        (fun _ _ _ => rfl) fun _ => rfl)

end Context.Alike

structure Recorder.Same (a b a' b' : Recorder) : Prop where
  mode : b'.mode = a'.mode
  announced : b'.announced = a'.announced
  records : ∃ new new', a'.records.toList = a.records.toList ++ new ∧
    b'.records.toList = b.records.toList ++ new' ∧
    new'.map Record.unnumbered = new.map Record.unnumbered

theorem Recorder.Same.refl {a b : Recorder} (mode : b.mode = a.mode) (announced : b.announced = a.announced) :
    Same a b a b := ⟨mode, announced, [], [], (List.append_nil _).symm, (List.append_nil _).symm, rfl⟩

theorem Recorder.Same.trans {a b a' b' a'' b'' : Recorder} (first : Same a b a' b')
    (second : Same a' b' a'' b'') : Same a b a'' b'' := by
  obtain ⟨new, new', added, added', same⟩ := first.records
  obtain ⟨later, later', more, more', same'⟩ := second.records
  refine ⟨second.mode, second.announced, new ++ later, new' ++ later', ?_, ?_, ?_⟩
  · rw [more, added, List.append_assoc]
  · rw [more', added', List.append_assoc]
  · rw [List.map_append, List.map_append, same, same']

theorem Recorder.Same.add {a b a' b' : Recorder} (h : Same a b a' b') {x y : Record}
    (same : y.unnumbered = x.unnumbered) : Same a b (a'.add x) (b'.add y) := by
  refine h.trans ⟨h.mode, h.announced, [x], [y], Array.toList_push, Array.toList_push, ?_⟩
  rw [List.map_singleton, List.map_singleton, same]

structure Twins (m : Matching) (system : Nat) (thread : Thread) (id id' : ContextId) (ra rb : Recorder)
    {α : Type} (x y : α × Debugger × Recorder) : Prop where
  result : y.1 = x.1
  debuggers : Debugger.Alike m system thread id id' x.2.1 y.2.1
  recorders : Recorder.Same ra rb x.2.2 y.2.2

section Twins

variable {m : Matching} {system : Nat} {thread : Thread} {id id' : ContextId} {a b : Debugger}
  {ra rb : Recorder} (h : Debugger.Alike m system thread id id' a b) (mode : rb.mode = ra.mode)
include h

theorem Debugger.Alike.isStarted_eq : b.isStarted = a.isStarted := by
  have active : (b.session.map (·.registry)).isSome = (a.session.map (·.registry)).isSome :=
    congrArg (·.2.1.isSome) h.rules
  rw [Option.isSome_map, Option.isSome_map] at active
  exact active

theorem Debugger.Alike.inspect {α β : Type} {r : α → β → Prop} {f : Context → Except Error α}
    {g : Context → Except Error β} (read : Results r (f (a.context id)) (g (b.context id'))) :
    Results r (a.inspect id f) (b.inspect id' g) := by
  unfold Debugger.inspect
  rw [h.isStarted_eq]
  split
  · exact read
  · exact .error _

theorem Debugger.Alike.command (mode : ResumeMode) :
    Results (Debugger.Alike m system thread id id') (a.command id mode.command) (b.command id' mode.command) :=
  (h.inspect (h.context.command mode)).bind fun {_ _} contexts =>
    .ok (h.updateContext (f := fun _ => _) (g := fun _ => _) fun _ => contexts)

include mode

theorem alike_onHalt (announced : rb.announced = ra.announced) (position : Position) :
    Twins m system thread id id' ra rb (Recorder.onHalt id position (a, ra))
      (Recorder.onHalt id' position (b, rb)) := by
  have recorded := h.inspect (h.context.haltRecord h.host.scopes position ra.announced)
  have taken : Recorder.Same ra rb { ra with announced := none } { rb with announced := none } :=
    ⟨mode, rfl, [], [], (List.append_nil _).symm, (List.append_nil _).symm, rfl⟩
  rw [Recorder.onHalt_eq, Recorder.onHalt_eq, announced]
  generalize a.inspect id _ = x at recorded ⊢
  generalize b.inspect id' _ = y at recorded ⊢
  cases recorded with
  | error error => exact ⟨rfl, h, taken⟩
  | @ok x y same =>
      have added := taken.add same
      have commanded := h.command ra.mode
      simp only [Recorder.add, mode] at added ⊢
      generalize a.command id _ = x at commanded ⊢
      generalize b.command id' _ = y at commanded ⊢
      cases commanded with
      | error error => exact ⟨rfl, h, added⟩
      | ok alike => exact ⟨rfl, alike, added⟩

theorem alike_onTrace (announced : rb.announced = ra.announced) (position : Position) :
    Twins m system thread id id' ra rb (Recorder.onTrace id position (a, ra))
      (Recorder.onTrace id' position (b, rb)) := by
  have recorded := h.inspect (r := fun x y => (Record.trace y).unnumbered = (Record.trace x).unnumbered)
    (f := fun context => .ok (⟨context.number, position, context.depth⟩ : TraceRecord))
    (g := fun context => .ok (⟨context.number, position, context.depth⟩ : TraceRecord))
    (.ok (by rw [h.context.depth_eq]; rfl))
  rw [Recorder.onTrace_eq, Recorder.onTrace_eq]
  generalize a.inspect id _ = x at recorded ⊢
  generalize b.inspect id' _ = y at recorded ⊢
  cases recorded with
  | error error => exact ⟨rfl, h, .refl mode announced⟩
  | ok same => exact ⟨rfl, h, (Recorder.Same.refl mode announced).add same⟩

theorem alike_drive {o o' : Outcome} (outcomes : o.Alike id id' o') (n : Nat)
    (announced : rb.announced = ra.announced) :
    Twins m system thread id id' ra rb (o.drive Recorder.frontEnd system id n (a, ra))
      (o'.drive Recorder.frontEnd system id' n (b, rb)) := by
  induction n generalizing o o' a b ra rb with
  | zero =>
      cases outcomes <;> exact ⟨rfl, h, .refl mode announced⟩
  | succ n ih =>
      have later {a b : Debugger} (h : Debugger.Alike m system thread id id' a b)
          {callback callback' : Callback} {next next' : Continuation} {ra' rb' : Recorder}
          (calls : Outcome.Alike id id' (.call callback next) (.call callback' next'))
          (same : Recorder.Same ra rb ra' rb') :
          Twins m system thread id id' ra rb
            ((next.run a system id).1.drive Recorder.frontEnd system id n ((next.run a system id).2, ra'))
            ((next'.run b system id').1.drive Recorder.frontEnd system id' n
              ((next'.run b system id').2, rb')) := by
        have pieces := Debugger.alike_run h calls
        have rest := ih pieces.debugger same.mode pieces.outcome same.announced
        exact ⟨rest.result, rest.debuggers, same.trans rest.recorders⟩
      have announces (announcement : Announcement) : Recorder.Same ra rb
          { ra with announced := some announcement } { rb with announced := some announcement } :=
        ⟨mode, rfl, [], [], (List.append_nil _).symm, (List.append_nil _).symm, rfl⟩
      cases outcomes with
      | done =>
          rw [drive_done, drive_done]
          exact ⟨rfl, h, .refl mode announced⟩
      | halted position =>
          have halts := alike_onHalt h mode announced position
          rw [Recorder.drive_halted, Recorder.drive_halted]
          exact ⟨congrArg (Except.mapError HookError.frontEnd) halts.result, halts.debuggers, halts.recorders⟩
      | breakpoint bp position onLine =>
          rw [Recorder.drive_announced _ _ _ _ _ rfl, Recorder.drive_announced _ _ _ _ _ rfl]
          exact later h (.breakpoint bp position onLine) (announces (.breakpoint bp.id))
      | catchpoint className number number' position receiver =>
          rw [Recorder.drive_announced _ _ _ _ _ rfl, Recorder.drive_announced _ _ _ _ _ rfl]
          exact later h (.catchpoint className number number' position receiver) (announces (.exception className))
      | traced position receiver moved =>
          have traces := alike_onTrace h mode announced position
          rw [Recorder.drive_traced, Recorder.drive_traced]
          generalize Recorder.onTrace id position (a, ra) = x at traces ⊢
          generalize Recorder.onTrace id' position (b, rb) = y at traces ⊢
          obtain ⟨result, a', ra'⟩ := x
          obtain ⟨result', b', rb'⟩ := y
          obtain ⟨same, alike, recorders⟩ := traces
          simp only at same
          subst same
          cases result' with
          | error error => exact ⟨rfl, alike, recorders⟩
          | ok => exact later alike (.traced position receiver moved) recorders

end Twins

end EventDebugger
