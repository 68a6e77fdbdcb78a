import EventDebugger.Proofs.Ticket.Progress
import EventDebugger.Proofs.Ticket.Stepping
import EventDebugger.Recording

/-!
# Why an event halts

The recorder learns of a breakpoint or of an exception before it is called on the line of the halt, and keeps it until
then. What it records of the halt therefore has the breakpoint or the exception that made this event halt, together
with the reason that the debugger gives.

* `Debugger.founded_dispatch`: every call of the front-end has a cause in the event.
* `HaltRecord.DueTo`: what is recorded of a halt, and its cause.
* `Debugger.Founded.gains`: the halts that are recorded of an event.
-/

namespace EventDebugger

/-! ## The cause of a call -/

namespace Debugger

inductive Founded (d : Debugger) (system : Nat) (id : ContextId) (event : Event) : Outcome × Debugger → Prop where
  | done (d' : Debugger) : Founded d system id event (.done, d')
  | traced {position : Position} (moved : Bool) (d' : Debugger) (kind : event.kind = .line false)
      (at' : event.position = some position) :
      Founded d system id event (.call (.tracing id position) (.lineTraced position event.receiver moved), d')
  | stepped (position : Position) {d' : Debugger} (reason : (d'.context id).reason = .step) :
      Founded d system id event (.call (.line id position) .resumed, d')
  | met {bp : Breakpoint} {position : Position} (onLine : Bool) {d' : Debugger}
      (listed : ∃ session, d.session = some session ∧ bp ∈ session.registry) (at' : event.position = some position)
      (meets : event.meets position bp) (holds : d.guardHoldsFor system event.receiver bp)
      (reason : (d'.context id).reason = .breakpoint) :
      Founded d system id event (.call (.breakpoint id bp) (.breakpointReported position onLine), d')
  | caught {exception : Value} {className : String} (position : Position) (binding : Option Binding) {d' : Debugger}
      (kind : event.kind = .raise exception) (caught : d.catchpoint = some className)
      (ancestor : className ∈ d.host.ancestors exception) (reason : (d'.context id).reason = .catchpoint) :
      Founded d system id event
        (.call (.catchpoint id exception) (.exceptionReported position event.receiver binding), d')

variable {d d' : Debugger} {system : Nat} {id : ContextId} {event : Event} {position : Position}

theorem Founded.congr {piece : Outcome × Debugger} (founded : Founded d system id event piece)
    (session : d'.session = d.session) (host : d'.host = d.host) (catchpoint : d'.catchpoint = d.catchpoint) :
    Founded d' system id event piece := by
  cases founded with
  | done d₁ => exact .done d₁
  | traced moved d₁ kind at' => exact .traced moved d₁ kind at'
  | stepped position reason => exact .stepped position reason
  | met onLine listed at' meets holds reason =>
      exact .met onLine (session ▸ listed) at' meets ((guardHoldsFor_congr host system _ _).trans holds) reason
  | caught position binding kind caught ancestor reason =>
      exact .caught position binding kind (catchpoint.trans caught) (host ▸ ancestor) reason

theorem Founded.of_touches {piece : Outcome × Debugger} (founded : Founded d' system id event piece)
    (touches : Touches system id d d') {thread : Thread} (bound : d.host.boundTo? system = some thread) :
    Founded d system id event piece :=
  founded.congr touches.session.symm (touches.host.eq_of_bound bound).symm
    (congrArg (·.catchpoint) touches.rest).symm

theorem exists_listed_of_found {p : Breakpoint → Bool} {found : Found} (plain : (d.context id).temporary = none)
    (hit : d.findBreakpoint? id p = some found) :
    ∃ bp, found = .listed bp ∧ (∃ session, d.session = some session ∧ bp ∈ session.registry) ∧ p bp := by
  cases found with
  | temporary bp number => exact absurd (plain.symm.trans (temporary_of_found hit)) (Option.some_ne_none bp).symm
  | listed bp => exact ⟨bp, rfl, listed_of_found hit⟩

theorem founded_checkLine (known : id < d.contexts.size) (plain : (d.context id).temporary = none)
    (kind : event.kind = .line false) (at' : event.position = some position) (moved : Bool) :
    Founded d system id event (d.checkLine system id position event.receiver moved) := by
  have sought := findBreakpoint?_countLine known moved (·.matchesPosition position)
  have guarded (bp : Breakpoint) := guardHolds_captureLine d system id event.receiver moved bp
  have known' : id < (d.updateContext id (·.countLine moved)).contexts.size := by
    rw [size_updateContext]
    exact known
  have captured := reason_captureLine known' system event.receiver
  have known'' := Nat.lt_of_lt_of_le known' (touches_captureLine _ system id event.receiver).size
  simp only [checkLine]
  split
  · exact .stepped position ((reason_haltAt _ id position true).trans captured)
  · split
    · exact .done _
    · next found hit =>
        rw [sought] at hit
        obtain ⟨bp, rfl, listed, meets⟩ := exists_listed_of_found plain hit
        rw [guarded]
        split
        · next holds =>
            have reason := reason_haltOnBreakpoint known'' (Found.isOwn_listed bp _) position true
            rw [haltOnBreakpoint_of_own (Found.isOwn_listed bp _)] at reason ⊢
            refine .met true listed at' ?_ holds reason
            simpa only [Event.meets, kind] using meets
        · exact .done _

theorem founded_onCall (known : id < d.contexts.size) (plain : (d.context id).temporary = none)
    (kind : event.kind = .call) (at' : event.position = some position) :
    Founded d system id event (d.onCall system id event position) := by
  have sought := findBreakpoint?_openFrame known system event position
    (·.matchesMethod (enteredType event) event.method)
  have guarded (bp : Breakpoint) := guardHolds_callBinding known system event position bp
  have known' := (reason_bound known system event position).2
  rw [onCall_eq]
  dsimp only at guarded known' ⊢
  rw [sought]
  split
  · exact .done _
  · next found hit =>
      obtain ⟨bp, rfl, listed, meets⟩ := exists_listed_of_found plain hit
      rw [guarded]
      split
      · next holds =>
          have reason := reason_haltOnBreakpoint known' (Found.isOwn_listed bp _) position false
          rw [haltOnBreakpoint_of_own (Found.isOwn_listed bp _)] at reason ⊢
          refine .met false listed at' ?_ holds reason
          simpa only [Event.meets, kind] using meets
      · exact .done _

theorem founded_onRaise (known : id < d.contexts.size) {exception : Value} (kind : event.kind = .raise exception)
    (position : Position) : Founded d system id event (d.onRaise system id event position exception) := by
  rcases d.onRaise_cases system id event position exception with
    ⟨⟨-, className, catchpoint, ancestor⟩, binding, d', size, reported⟩ | ⟨-, done⟩
  · rw [reported]
    refine .caught position binding kind catchpoint ancestor ?_
    rw [context_updateContext_self _ _ (Nat.lt_of_lt_of_le known size)]
  · rw [← Prod.mk.eta (p := d.onRaise system id event position exception), done]
    exact .done _

theorem founded_dispatch (known : id < d.contexts.size) (plain : (d.context id).temporary = none) {thread : Thread}
    (bound : d.host.boundTo? system = some thread) (event : Event) :
    Founded d system id event (d.dispatch system id event) := by
  cases skipped : (d.context id).skipped with
  | true =>
      simp only [dispatch, skipped, if_true]
      exact .done _
  | false =>
      cases at' : event.position with
      | none =>
          simp only [dispatch, skipped, at', Bool.false_eq_true, if_false]
          split <;> exact .done _
      | some position =>
          have touches := d.touches_placed system id event position
          have known' := Nat.lt_of_lt_of_le known touches.size
          have plain' : ((d.placed system id event position).context id).temporary = none :=
            (congrArg (·.2.2) (marks_placed known system event position)).trans plain
          cases kind : event.kind with
          | line conditional =>
              cases conditional with
              | true =>
                  rw [dispatch_conditional system id event position d skipped at' kind]
                  exact .done _
              | false =>
                  rw [dispatch_line system id event position d skipped at' kind]
                  dsimp only
                  split
                  · exact .traced _ _ kind at'
                  · exact (founded_checkLine known' plain' kind at' _).of_touches touches bound
          | call =>
              rw [dispatch_call system id event position d skipped at' kind]
              exact (founded_onCall known' plain' kind at').of_touches touches bound
          | raise exception =>
              have noted := d.touches_noteEvent system id event
              have known'' := Nat.lt_of_lt_of_le known noted.size
              rw [at', kind] at noted known''
              simp only [dispatch, skipped, at', dispatchAt, kind, Bool.false_eq_true, if_false]
              exact (founded_onRaise known'' kind position).of_touches noted bound
          | «return» | classClose | classOpen =>
              simp only [dispatch, skipped, at', dispatchAt, kind, Bool.false_eq_true, if_false]
              exact .done _
          | nativeCall | nativeReturn =>
              simp only [dispatch, skipped, at', dispatchAt, kind, Bool.false_eq_true, if_false]
              split <;> exact .done _

end Debugger

/-! ## The cause of a record -/

def Breakpoint.IsFrom (bps : List BreakConfig) (bp : Breakpoint) : Prop :=
  ∃ i listed, bps[i]? = some listed ∧ listed.target? = some bp.target ∧
    bp.id = i + 1 ∧ bp.source = listed.source ∧ bp.guard = listed.cond

namespace BreakConfig

/-- A configured breakpoint stands on the line of an event, or on the method that it enters. -/
def StandsOn (listed : BreakConfig) (event : Event) : Prop :=
  match event.kind with
  | .line _ => ∃ position, event.position = some position ∧ listed.target? = some (.line position.line) ∧
      FileName.matches? listed.source position.file
  | .call => ∃ method, event.method = some method ∧ listed.target? = some (.method method) ∧
      Debugger.enteredType event = some listed.source
  | _ => False

/-- The guard of a configured breakpoint is absent, or true of the variables of a scope. -/
def Admits (listed : BreakConfig) (scopes : Scopes) (scope : Scope) : Prop :=
  ∀ guard ∈ listed.cond, Condition.evaluate (scopes.lookup? scope) guard = .ok true

variable {listed : BreakConfig} {bp : Breakpoint} {event : Event} {position : Position}

theorem standsOn_of_meets (source : bp.source = listed.source) (target : listed.target? = some bp.target)
    (at' : event.position = some position) (meets : event.meets position bp) : listed.StandsOn event := by
  unfold Event.meets at meets
  unfold StandsOn
  cases kind : event.kind with
  | line conditional =>
      simp only [kind, Breakpoint.matchesPosition] at meets ⊢
      split at meets
      · next number is =>
          obtain ⟨same, file⟩ := Bool.and_eq_true_iff.mp meets
          rw [is, eq_of_beq same] at target
          exact ⟨position, at', target, source ▸ file⟩
      · cases meets
  | call =>
      simp only [kind, Breakpoint.matchesMethod] at meets ⊢
      split at meets
      · next name is =>
          obtain ⟨method, type⟩ := Bool.and_eq_true_iff.mp meets
          rw [is] at target
          exact ⟨name, eq_of_beq method, target, source ▸ eq_of_beq type⟩
      · cases meets
  | _ =>
      simp only [kind] at meets
      cases meets

end BreakConfig

inductive HaltRecord.DueTo (config : Config) (program : Program) (scopes : Scopes) (event : Event)
    (halt : HaltRecord) : Prop where
  | step (reason : halt.reason = .step) (breakpoint : halt.breakpoint = none) (exception : halt.exception = none)
  | breakpoint (i : Nat) (listed : BreakConfig) (scope : Scope) (reason : halt.reason = .breakpoint)
      (number : halt.breakpoint = some (i + 1)) (exception : halt.exception = none)
      (is : config.breakpoints[i]? = some listed) (position : event.position = some halt.position)
      (stands : listed.StandsOn event) (inside : event.scope = some scope) (admits : listed.Admits scopes scope)
  | catchpoint (exception : Value) (className : String) (reason : halt.reason = .catchpoint)
      (breakpoint : halt.breakpoint = none) (named : halt.exception = (Announcement.ofException exception).exception?)
      (kind : event.kind = .raise exception) (caught : config.catchpoint = some className)
      (ancestor : className ∈ (Host.initial.declare program).ancestors exception)

namespace Debugger

/-- A debugger with the breakpoints and the catch-point of a configuration, and the declarations of a program. -/
structure Obeys (config : Config) (program : Program) (d : Debugger) : Prop where
  listed : ∀ {session}, d.session = some session → ∀ bp ∈ session.registry, bp.IsFrom config.breakpoints
  caught : d.catchpoint = config.catchpoint
  parents : d.host.parents = (Host.initial.declare program).parents

structure Notifies (d : Debugger) (system : Nat) (thread : Thread) (event : Event) : Prop where
  bound : d.host.boundTo? system = some thread
  received : event.receiver.isSome
  inside : ∃ record, d.host.record? thread = some record ∧ event.scope = some record.scope

variable {d : Debugger} {system : Nat} {id : ContextId} {thread : Thread} {event : Event} {config : Config}
  {program : Program} {r : Recorder}

theorem Notifies.admits (notifies : d.Notifies system thread event) {bp : Breakpoint}
    (holds : d.guardHoldsFor system event.receiver bp) {listed : BreakConfig} (guard : bp.guard = listed.cond) :
    ∃ scope, event.scope = some scope ∧ listed.Admits d.host.scopes scope := by
  obtain ⟨receiver, received⟩ := Option.isSome_iff_exists.mp notifies.received
  obtain ⟨record, found, inside⟩ := notifies.inside
  refine ⟨record.scope, inside, fun text is => ?_⟩
  have captured : d.captureBinding system event.receiver = (some ⟨receiver, .live record.scope⟩, d) := by
    simp only [captureBinding, received, Host.createBinding?, Host.createBinding,
      Host.currentThread_of_bound notifies.bound, found]
  rw [Option.mem_def, ← guard] at is
  simp only [guardHoldsFor, captured, guardHolds, is] at holds
  split at holds
  · next holds' evaluates =>
      subst holds
      exact evaluates
  · cases holds

theorem Obeys.dueTo_of_met (obeys : d.Obeys config program) (notifies : d.Notifies system thread event)
    {bp : Breakpoint} (listed : ∃ session, d.session = some session ∧ bp ∈ session.registry) {halt : HaltRecord}
    (at' : event.position = some halt.position) (meets : event.meets halt.position bp)
    (holds : d.guardHoldsFor system event.receiver bp) (reason : halt.reason = .breakpoint)
    (number : halt.breakpoint = some bp.id) (exception : halt.exception = none) :
    halt.DueTo config program d.host.scopes event := by
  obtain ⟨session, active, member⟩ := listed
  obtain ⟨i, listed, is, target, id, source, guard⟩ := obeys.listed active bp member
  obtain ⟨scope, inside, admits⟩ := notifies.admits holds guard
  exact .breakpoint i listed scope reason (id ▸ number) exception is at'
    (listed.standsOn_of_meets source target at' meets) inside admits

end Debugger

/-! ## The recorder -/

structure HaltRecord.Shows (halt : HaltRecord) (context : Context) (position : Position)
    (announced : Option Announcement) : Prop where
  position : halt.position = position
  reason : halt.reason = context.stopReason
  breakpoint : halt.breakpoint = announced.bind Announcement.breakpoint?
  exception : halt.exception = announced.bind Announcement.exception?

namespace Recorder

def Gains (P : HaltRecord → Prop) (r r' : Recorder) : Prop :=
  ∃ new, r'.records.toList = r.records.toList ++ new ∧ ∀ {halt}, .halt halt ∈ new → P halt

variable {P Q : HaltRecord → Prop} {r r' r'' : Recorder}

theorem Gains.of_same (same : r'.records = r.records) : Gains P r r' :=
  ⟨[], by rw [same, List.append_nil], nofun⟩

theorem Gains.trans (first : Gains P r r') (second : Gains P r' r'') : Gains P r r'' := by
  obtain ⟨new, added, holds⟩ := first
  obtain ⟨new', added', holds'⟩ := second
  refine ⟨new ++ new', by rw [added', added, List.append_assoc], fun member => ?_⟩
  exact (List.mem_append.mp member).elim holds holds'

theorem Gains.mono (gains : Gains P r r') (imp : ∀ {halt}, P halt → Q halt) : Gains Q r r' :=
  have ⟨new, added, holds⟩ := gains
  ⟨new, added, fun member => imp (holds member)⟩

theorem records_of_onHalt (d : Debugger) (r : Recorder) (id : ContextId) (position : Position) :
    (onHalt id position (d, r)).2.2.records = r.records ∨
      ∃ halt : HaltRecord, halt.Shows (d.context id) position r.announced ∧
        (onHalt id position (d, r)).2.2.records = r.records.push (.halt halt) := by
  rw [onHalt_eq]
  split
  · exact .inl rfl
  · next record found =>
      refine .inr ⟨record, ?_, ?_⟩
      · unfold Debugger.inspect at found
        split at found
        · obtain ⟨frame, _, made⟩ := except_bind_eq_ok found
          cases made
          exact ⟨rfl, rfl, rfl, rfl⟩
        · cases found
      · dsimp only
        split <;> rfl

theorem gains_onHalt (d : Debugger) (r : Recorder) (id : ContextId) (position : Position) :
    Gains (·.Shows (d.context id) position r.announced) r (onHalt id position (d, r)).2.2 := by
  rcases records_of_onHalt d r id position with same | ⟨halt, shows, pushed⟩
  · exact .of_same same
  · refine ⟨[.halt halt], by rw [pushed, Array.toList_push], fun member => ?_⟩
    cases List.mem_singleton.mp member
    exact shows

theorem gains_onTrace (d : Debugger) (r : Recorder) (id : ContextId) (position : Position) :
    Gains P r (onTrace id position (d, r)).2.2 := by
  rw [onTrace_eq]
  split
  · exact .of_same rfl
  · exact ⟨[.trace _], Array.toList_push, fun member => by cases List.mem_singleton.mp member⟩

end Recorder

/-! ## The halts of an event -/

namespace Debugger

variable {d : Debugger} {system : Nat} {id : ContextId} {thread : Thread} {event : Event} {config : Config}
  {program : Program} {r : Recorder} {piece : Outcome × Debugger}

theorem live_of_touches {d' : Debugger} (touches : Touches system id d d') (known : id < d.contexts.size)
    (live : (d.context id).dead = false) : (d'.context id).dead = false :=
  (congrArg (·.2.2.2.2.2.2.1) (touches.traits id known)).trans live

theorem stopReason_of_live (live : (d.context id).dead = false) :
    (d.context id).stopReason = (d.context id).reason := by
  rw [Context.stopReason, live, if_neg Bool.false_ne_true]

theorem gains_announced (known : id < d.contexts.size) (live : (d.context id).dead = false) {callback : Callback}
    (announcement : Announcement) (next : Continuation) {position : Position}
    (announces : Recorder.frontEnd system callback = Recorder.announce announcement)
    (untraced : ∀ position receiver moved, next ≠ .lineTraced position receiver moved)
    (halts : (next.run d system id).1 = .call (.line id position) .resumed) (n : Nat) :
    r.Gains (fun halt => halt.position = position ∧ halt.reason = (d.context id).reason ∧
        halt.breakpoint = announcement.breakpoint? ∧ halt.exception = announcement.exception?)
      (Outcome.drive Recorder.frontEnd system id (n + 2) (.call callback next) (d, r)).2.2 := by
  have reason := reason_run d system id untraced
  have live' := live_of_touches (d.touches_run system id next) known live
  rw [Recorder.drive_announced _ _ _ _ _ announces, halts, Recorder.drive_halted]
  have gains := Recorder.gains_onHalt (next.run d system id).2 { r with announced := some announcement } id position
  refine .trans (.of_same rfl) (gains.mono fun shows => ⟨shows.position, ?_, shows.breakpoint, shows.exception⟩)
  rw [shows.reason, stopReason_of_live live', reason]

theorem Founded.gains_untraced (founded : Founded d system id event piece) (obeys : d.Obeys config program)
    (notifies : d.Notifies system thread event) (known : id < piece.2.contexts.size)
    (live : (piece.2.context id).dead = false) (settled : r.announced = none) {n : Nat} (enough : piece.1.rank ≤ n)
    (untraced : piece.1.rank ≤ 2) : r.Gains (·.DueTo config program d.host.scopes event)
      (piece.1.drive Recorder.frontEnd system id n (piece.2, r)).2.2 := by
  cases founded with
  | done d' =>
      rw [drive_done]
      exact .of_same rfl
  | traced => exact absurd untraced (Nat.not_succ_le_self 2)
  | @stepped position d' reason =>
      obtain ⟨n, rfl⟩ := Nat.exists_eq_add_of_le' enough
      rw [Outcome.rank, Continuation.rank, Recorder.drive_halted]
      refine (Recorder.gains_onHalt d' r id position).mono fun shows => ?_
      rw [settled] at shows
      exact .step (shows.reason.trans ((stopReason_of_live live).trans reason)) shows.breakpoint shows.exception
  | @met bp position onLine d' listed at' meets holds reason =>
      obtain ⟨n, rfl⟩ := Nat.exists_eq_add_of_le' enough
      refine (gains_announced known live (.breakpoint bp.id) (.breakpointReported position onLine) rfl
        (fun _ _ _ same => by cases same) (d'.outcome_haltAt id position onLine) n).mono ?_
      rintro halt ⟨rfl, reason', number, exception⟩
      exact obeys.dueTo_of_met notifies listed at' meets holds (reason'.trans reason) number exception
  | @caught exception className position binding d' kind caught ancestor reason =>
      obtain ⟨n, rfl⟩ := Nat.exists_eq_add_of_le' enough
      refine (gains_announced known live (.ofException exception) (.exceptionReported position event.receiver binding)
        rfl (fun _ _ _ same => by cases same) rfl n).mono ?_
      rintro halt ⟨-, reason', breakpoint, named⟩
      rw [Host.ancestors_eq obeys.parents] at ancestor
      refine .catchpoint exception className (reason'.trans reason) (breakpoint.trans ?_) named kind
        (obeys.caught.symm.trans caught) ancestor
      cases exception <;> rfl

theorem Founded.gains (founded : Founded d system id event piece) (obeys : d.Obeys config program)
    (notifies : d.Notifies system thread event) (touches : Touches system id d piece.2)
    (known : id < d.contexts.size) (live : (d.context id).dead = false)
    (plain : (piece.2.context id).temporary = none) (settled : r.announced = none) :
    r.Gains (·.DueTo config program d.host.scopes event)
      (piece.1.complete Recorder.frontEnd system id (piece.2, r)).2.2 := by
  have known' := Nat.lt_of_lt_of_le known touches.size
  have live' := live_of_touches touches known live
  by_cases untraced : piece.1.rank ≤ 2
  · exact founded.gains_untraced obeys notifies known' live' settled (Nat.le_refl _) untraced
  · cases founded with
    | @traced position moved d' kind at' =>
        -- After its trace the line is checked as one that is not traced.
        have checked := (founded_checkLine known' plain kind at' moved).of_touches touches notifies.bound
        have touches' := d'.touches_checkLine system id position event.receiver moved
        have rank := d'.rank_checkLine_le system id position event.receiver moved
        have known'' := Nat.lt_of_lt_of_le known' touches'.size
        have live'' := live_of_touches touches' known' live'
        have traced := Recorder.gains_onTrace (P := (·.DueTo config program d.host.scopes event)) d' r id position
        have announced := (Recorder.records_onTrace d' r id position system).2
        unfold Outcome.complete
        rw [Outcome.rank, Continuation.rank, Recorder.drive_traced]
        revert traced announced
        rw [Recorder.onTrace_eq]
        cases d'.inspect id fun context => .ok (⟨context.number, position, context.depth⟩ : TraceRecord) with
        | error error => exact fun traced _ => traced
        | ok record =>
            intro traced announced
            have settled' := announced.trans settled
            exact traced.trans (checked.gains_untraced obeys notifies known'' live'' settled' rank rank)
    | done => exact absurd (Nat.zero_le 2) untraced
    | stepped => exact absurd (Nat.le_succ 1) untraced
    | met | caught => exact absurd (Nat.le_refl 2) untraced

end Debugger

end EventDebugger
