import EventDebugger.Proofs.Schedule.Actions
import EventDebugger.Proofs.Schedule.Events
import EventDebugger.Recording

/-!
# Schedules

A program under the recorder whose threads move one at a time, in the order that a schedule gives. The
records of a thread are those about its contexts.

* `ReplayThread.Sound.step`: what one move of a thread does.
* `Replaying.Sound.run`: what holds after every schedule.
-/

namespace EventDebugger

/-- The threads of a program that is replayed under the recorder. -/
structure Replaying where
  threads : List (ReplayThread Error)
  debugger : Debugger
  recorder : Recorder

namespace Replaying

def move (p : Replaying) (i : Nat) : Replaying :=
  match p.threads[i]? with
  | none => p
  | some t =>
      let moved := t.step Recorder.frontEnd (p.debugger, p.recorder)
      ⟨p.threads.set i moved.1, moved.2.1, moved.2.2⟩

def run (p : Replaying) (schedule : List Nat) : Replaying := schedule.foldl move p

end Replaying

def recordsOf (thread : Thread) (p : Debugger × Recorder) : List Record :=
  (p.2.records.toList.filter fun record => p.1.owner? record.number == some thread).map Record.unnumbered

def Replaying.recordsOf (p : Replaying) (i : Nat) : List Record :=
  match p.threads[i]? with
  | none => []
  | some t => EventDebugger.recordsOf t.thread (p.debugger, p.recorder)

/-! ## What a move does -/

def ReplayThread.Names (t : ReplayThread Error) (cell : Nat) : Prop :=
  match t.phase with
  | .running activations _ | .waiting activations _ _ => activations.Names cell
  | _ => False

inductive ReplayThread.Sound (d : Debugger) : ReplayThread Error → Prop
  | starting {thread : Thread} {system : Nat} {steps : List Step} (free : d.host.boundTo? system = none)
      (unbound : ∀ s, d.host.boundTo? s ≠ some thread) (registered : thread.id ≤ d.host.threadCount)
      (alive : d.host.isAlive thread)
      (stays : Action.raise "SystemExit" ∉ (Step.toActionsAll steps).actions) :
      Sound d ⟨thread, system, steps, .starting⟩
  | running {thread : Thread} {system : Nat} {steps : List Step} {activations : Activations}
      {actions : List Action} (bound : d.host.boundTo? system = some thread) (alive : d.host.isAlive thread)
      (known : ∀ {c}, activations.Names c → c < d.host.scopes.cells.size)
      (stays : Action.raise "SystemExit" ∉ actions) :
      Sound d ⟨thread, system, steps, .running activations actions⟩
  | exited (thread : Thread) (system : Nat) (steps : List Step) (result : HookResult Error) :
      Sound d ⟨thread, system, steps, .exited result⟩

def ReplayThread.Goes (t : ReplayThread Error) : Prop := ∀ result, t.phase ≠ .exited result

theorem ReplayThread.Sound.alive {d : Debugger} {t : ReplayThread Error} (h : t.Sound d) (goes : t.Goes) :
    d.host.isAlive t.thread := by
  cases h with
  | starting _ _ _ alive _ => exact alive
  | running _ alive _ _ => exact alive
  | exited _ _ _ result => exact absurd rfl (goes result)

theorem ReplayThread.Goes.of_step {t : ReplayThread Error} {p : Debugger × Recorder}
    (goes : (t.step Recorder.frontEnd p).1.Goes) : t.Goes := by
  obtain ⟨thread, system, steps, phase⟩ := t
  intro result exited
  obtain rfl : phase = .exited result := exited
  exact goes result rfl

theorem ReplayThread.Sound.names_lt {d : Debugger} {t : ReplayThread Error} (h : t.Sound d) {c : Nat}
    (names : t.Names c) : c < d.host.scopes.cells.size := by
  cases h with
  | starting => cases names
  | running _ _ known _ => exact known names
  | exited => cases names

structure Works (thread : Thread) (system : Nat) (written : Nat → Prop) (p q : Debugger × Recorder) :
    Prop where
  quiet : q.1.Quiet
  announced : q.2.announced = none
  mode : q.2.mode = p.2.mode
  rules : q.1.rules = p.1.rules
  host : p.1.host.ActedBy thread system written q.1.host
  contexts : ∀ {other}, other ≠ thread → p.1.host.isAlive other →
    q.1.contextFor? other = p.1.contextFor? other
  owners : ∀ {number other}, p.1.owner? number = some other → q.1.owner? number = some other
  records : ∃ new, q.2.records.toList = p.2.records.toList ++ new ∧
    ∀ record ∈ new, q.1.owner? record.number = some thread

namespace Works

variable {thread : Thread} {system : Nat} {written : Nat → Prop} {p q s : Debugger × Recorder}

theorem trans (first : Works thread system written p q) (second : Works thread system written q s) :
    Works thread system written p s := by
  obtain ⟨new, added, owned⟩ := first.records
  obtain ⟨new', added', owned'⟩ := second.records
  refine ⟨second.quiet, second.announced, second.mode.trans first.mode, second.rules.trans first.rules,
    first.host.trans second.host, fun ne alive => ?_, fun is => second.owners (first.owners is),
    new ++ new', ?_, fun record member => ?_⟩
  · rw [second.contexts ne ((first.host.isAlive_eq ne).symm ▸ alive), first.contexts ne alive]
  · rw [added', added, List.append_assoc]
  · rcases List.mem_append.mp member with old | new
    · exact second.owners (owned record old)
    · exact owned' record new

theorem of_host {d : Debugger} {r : Recorder} (quiet : d.Quiet) (settled : r.announced = none) {host : Host}
    (acted : d.host.ActedBy thread system written host) :
    Works thread system written (d, r) ({ d with host }, r) := by
  refine ⟨quiet.withHost host, settled, rfl, ?_, acted, fun _ _ => rfl, id, [], (List.append_nil _).symm, nofun⟩
  unfold Debugger.rules
  rw [acted.parents]

theorem of_handled (quiet : p.1.Quiet) (handled : Handled thread p q) :
    Works thread system written p q := by
  refine ⟨handled.quiet, handled.announced, handled.mode, handled.doneFor.rules, ?_,
    fun ne alive => handled.doneFor.contextFor?_eq quiet.well alive ne,
    handled.doneFor.owner?_eq quiet.numbered, handled.records⟩
  rw [handled.doneFor.host]
  exact .refl _ _ _ _

theorem recordsOf_eq (h : Works thread system written p q)
    (owned : ∀ record ∈ p.2.records.toList, (p.1.owner? record.number).isSome) {new : List Record}
    (added : q.2.records.toList = p.2.records.toList ++ new) (other : Thread) :
    recordsOf other q =
      recordsOf other p ++ if other = thread then new.map Record.unnumbered else [] := by
  obtain ⟨new', added', owned'⟩ := h.records
  obtain rfl : new' = new := List.append_cancel_left (added'.symm.trans added)
  have before : p.2.records.toList.filter (fun record => q.1.owner? record.number == some other) =
      p.2.records.toList.filter fun record => p.1.owner? record.number == some other := by
    refine List.filter_congr fun record member => ?_
    obtain ⟨owner, owns⟩ := Option.isSome_iff_exists.mp (owned record member)
    rw [h.owners owns, owns]
  have since : new'.filter (fun record => q.1.owner? record.number == some other) =
      if other = thread then new' else [] := by
    split
    · next same =>
        refine List.filter_eq_self.mpr fun record member => ?_
        rw [owned' record member, same]
        exact beq_self_eq_true _
    · next ne =>
        refine List.filter_eq_nil_iff.mpr fun record member is => ne ?_
        rw [owned' record member] at is
        exact (Option.some.inj (eq_of_beq is)).symm
  unfold recordsOf
  rw [added', List.filter_append, before, since, List.map_append]
  split <;> rfl

end Works

/-! ## The moves of a thread -/

section Equations

variable (thread : Thread) (system : Nat) (steps : List Step) (activations : Activations)
  (actions : List Action) (d : Debugger) (r : Recorder)

theorem step_starting :
    (⟨thread, system, steps, .starting⟩ : ReplayThread Error).step Recorder.frontEnd (d, r) =
      (⟨thread, system, steps,
          .running (.start ⟨d.host.scopes.cells.size, none⟩) (Step.toActionsAll steps).actions⟩,
        { d with
          host := { d.host with scopes := ⟨d.host.scopes.cells.push []⟩ }.bind system thread }, r) := rfl

theorem step_silent {action : Action} (silent : (action.perform thread activations d.host).event = none) :
    (⟨thread, system, steps, .running activations (action :: actions)⟩ : ReplayThread Error).step
        Recorder.frontEnd (d, r) =
      (⟨thread, system, steps,
          .running (action.perform thread activations d.host).activations actions⟩,
        { d with host := (action.perform thread activations d.host).host }, r) := by
  change ReplayThread.perform Recorder.frontEnd _ activations action actions (d, r) = _
  rw [ReplayThread.perform, run_bind_eq, Run.onDebugger]
  dsimp only
  rw [silent]
  rfl

theorem step_event {action : Action} {event : Event} {scope : Scope} {result : HookResult Error}
    {after : Debugger × Recorder} (notifies : (action.perform thread activations d.host).event = some event)
    (placed : event.scope = some scope)
    (handled : handleEvent Recorder.frontEnd system event
      ({ d with host := (action.perform thread activations d.host).host.enterScope system scope }, r) =
        (.finished result, after)) :
    (⟨thread, system, steps, .running activations (action :: actions)⟩ : ReplayThread Error).step
        Recorder.frontEnd (d, r) =
      match result with
      | .ok () => (⟨thread, system, steps,
          .running (action.perform thread activations d.host).activations actions⟩, after)
      | .error error => (⟨thread, system, steps, .exited (.error error)⟩,
          { after.1 with host := after.1.host.exitThread thread }, after.2) := by
  have emitted : ReplayThread.emit Recorder.frontEnd system event
      ({ d with host := (action.perform thread activations d.host).host }, r) = (.finished result, after) := by
    unfold ReplayThread.emit
    rw [placed]
    exact handled
  change ReplayThread.perform Recorder.frontEnd _ activations action actions (d, r) = _
  rw [ReplayThread.perform, run_bind_eq, Run.onDebugger]
  dsimp only
  rw [notifies]
  change ReplayThread.afterEvent _ _ _ (ReplayThread.emit Recorder.frontEnd system event _).1
    (ReplayThread.emit Recorder.frontEnd system event _).2 = _
  rw [emitted]
  rcases result with _ | ⟨⟨⟩⟩ <;> rfl

theorem step_finish (unkept : d.postMortems = []) :
    (⟨thread, system, steps, .running activations []⟩ : ReplayThread Error).step Recorder.frontEnd (d, r) =
      (⟨thread, system, steps, .exited (.ok ())⟩, { d with host := d.host.exitThread thread }, r) := by
  obtain ⟨root, inner, raised⟩ := activations
  cases raised with
  | none => rfl
  | some exception =>
      have uncaught : ReplayThread.uncaught Recorder.frontEnd system exception (d, r) = (.ok (), d, r) := by
        have nothing : d.postMortem? exception = none := by
          unfold Debugger.postMortem?
          rw [unkept]
          cases exception <;> rfl
        have current : (Run.debugger : Run Recorder Debugger) (d, r) = (d, d, r) := rfl
        rw [ReplayThread.uncaught, run_bind_eq, current]
        dsimp only
        rw [nothing]
        split <;> rfl
      change ReplayThread.exit _ (ReplayThread.uncaught Recorder.frontEnd system exception (d, r)).1
        (ReplayThread.uncaught Recorder.frontEnd system exception (d, r)).2 = _
      rw [uncaught]
      rfl

end Equations

structure ReplayThread.Moved (t t' : ReplayThread Error) (p q : Debugger × Recorder) : Prop where
  same : t'.thread = t.thread ∧ t'.system = t.system ∧ t'.steps = t.steps
  works : Works t.thread t.system t.Names p q
  names : ∀ {c}, t'.Names c →
    t.Names c ∨ p.1.host.scopes.cells.size ≤ c ∧ c < q.1.host.scopes.cells.size
  sound : t'.Sound q.1

theorem Action.entered (action : Action) (activations : Activations) {thread : Thread} {system : Nat}
    {d : Debugger} {r : Recorder} (quiet : d.Quiet) (settled : r.announced = none)
    (bound : d.host.boundTo? system = some thread) (alive : d.host.isAlive thread) (scope : Scope) :
    let host := (action.perform thread activations d.host).host.enterScope system scope
    Works thread system activations.Names (d, r) ({ d with host }, r) ∧
      host.boundTo? system = some thread ∧ host.isAlive thread := by
  have performs := action.performs thread system activations d.host
  have bound' := (performs.same.boundTo?_eq system).trans bound
  have same := Host.sameThreads_enterScope bound' scope
  have acted := performs.acted.trans (.of_enterScope bound' scope)
  exact ⟨.of_host quiet settled acted, (same.boundTo?_eq system).trans bound',
    (same.isAlive_eq thread).trans ((performs.same.isAlive_eq thread).trans alive)⟩

theorem Works.exit {thread : Thread} {system : Nat} {written : Nat → Prop} {p q : Debugger × Recorder}
    (works : Works thread system written p q) (own : p.1.host.OwnThreads)
    (bound : q.1.host.boundTo? system = some thread) :
    Works thread system written p ({ q.1 with host := q.1.host.exitThread thread }, q.2) :=
  works.trans (.of_host works.quiet works.announced (.of_exitThread (works.host.own own) bound))

theorem ReplayThread.Sound.step {t : ReplayThread Error} {d : Debugger} (h : t.Sound d) {r : Recorder}
    (quiet : d.Quiet) (own : d.host.OwnThreads) (settled : r.announced = none) :
    t.Moved (t.step Recorder.frontEnd (d, r)).1 (d, r) (t.step Recorder.frontEnd (d, r)).2 := by
  cases h with
  | exited thread system steps result =>
      exact ⟨⟨rfl, rfl, rfl⟩, .of_host quiet settled (.refl _ _ _ _), nofun, .exited thread system steps result⟩
  | @starting thread system steps free unbound registered alive stays =>
      rw [step_starting]
      let pushed : Host := { d.host with scopes := ⟨d.host.scopes.cells.push []⟩ }
      have free : pushed.boundTo? system = none := free
      have unbound : ∀ s, pushed.boundTo? s ≠ some thread := unbound
      have acted : d.host.ActedBy thread system (Names ⟨thread, system, steps, .starting⟩)
          (pushed.bind system thread) :=
        (Host.ActedBy.of_push d.host thread system _).trans (.of_bind free unbound registered)
      have new {c : Nat} (names : (Activations.start ⟨d.host.scopes.cells.size, none⟩).Names c) :
          d.host.scopes.cells.size ≤ c ∧ c < (pushed.bind system thread).scopes.cells.size := by
        change _ ≤ c ∧ c < (d.host.scopes.cells.push []).size
        rw [Array.size_push]
        rcases names with root | ⟨_, member, _⟩
        · have := Scope.names_entered _ root
          omega
        · cases member
      refine ⟨⟨rfl, rfl, rfl⟩, .of_host quiet settled acted, fun names => .inr (new names),
        .running ?_ ?_ (fun names => (new names).2) stays⟩
      · exact (Host.boundTo?_bind pushed system system thread).trans (if_pos rfl)
      · exact (Host.isAlive_bind pushed system thread thread).trans alive
  | @running thread system steps activations actions bound alive known stays =>
      cases actions with
      | nil =>
          rw [step_finish _ _ _ _ _ _ quiet.unkept]
          refine ⟨⟨rfl, rfl, rfl⟩, ?_, nofun, .exited thread system steps _⟩
          exact .of_host quiet settled (.of_exitThread own bound)
      | cons action actions =>
          have performs := action.performs thread system activations d.host
          have worked : Works thread system activations.Names (d, r) _ := .of_host quiet settled performs.acted
          have bound' := (performs.same.boundTo?_eq system).trans bound
          have alive' := (performs.same.isAlive_eq thread).trans alive
          have other : action ≠ .raise "SystemExit" := fun same => stays (same ▸ List.mem_cons_self)
          have later : Action.raise "SystemExit" ∉ actions := fun member => stays (List.mem_cons_of_mem _ member)
          have names {c : Nat} (names : (action.perform thread activations d.host).activations.Names c) :=
            performs.names names
          cases notified : (action.perform thread activations d.host).event with
          | none =>
              rw [step_silent _ _ _ _ _ _ _ notified]
              refine ⟨⟨rfl, rfl, rfl⟩, worked, names, .running bound' alive' (fun h => ?_) later⟩
              rcases names h with old | new
              · exact Nat.lt_of_lt_of_le (known old) performs.acted.size
              · exact new.2
          | some event =>
              obtain ⟨scope, placed⟩ := performs.placed notified
              obtain ⟨worked, bound', alive'⟩ := action.entered activations quiet settled bound alive scope
              have enters : (action.perform thread activations d.host).host.ActedBy thread system activations.Names
                  ((action.perform thread activations d.host).host.enterScope system scope) :=
                .of_enterScope ((performs.same.boundTo?_eq system).trans bound) scope
              have grown := enters.size
              obtain ⟨result, after, handles, handled⟩ :=
                worked.quiet.handled bound' (performs.stays other notified) settled
              have worked := worked.trans (.of_handled worked.quiet handled)
              have host : after.1.host =
                  (action.perform thread activations d.host).host.enterScope system scope :=
                handled.doneFor.host
              rw [← host] at bound' alive' grown
              rw [step_event _ _ _ _ _ _ _ notified placed handles]
              cases result with
              | error error =>
                  exact ⟨⟨rfl, rfl, rfl⟩, worked.exit own bound', nofun, .exited thread system steps _⟩
              | ok =>
                  refine ⟨⟨rfl, rfl, rfl⟩, worked, fun h => ?_, .running bound' alive' (fun h => ?_) later⟩
                  · exact (names h).imp_right fun new => ⟨new.1, Nat.lt_of_lt_of_le new.2 grown⟩
                  · rcases names h with old | new
                    · exact Nat.lt_of_lt_of_le (known old) worked.host.size
                    · exact Nat.lt_of_lt_of_le new.2 grown


theorem ReplayThread.Sound.of_acted {t : ReplayThread Error} {d d' : Debugger} (h : t.Sound d)
    {thread : Thread} {system : Nat} {written : Nat → Prop}
    (acted : d.host.ActedBy thread system written d'.host) (other : t.thread ≠ thread)
    (elsewhere : t.system ≠ system) : t.Sound d' := by
  cases h with
  | exited thread system steps result => exact .exited thread system steps result
  | starting free unbound registered alive stays =>
      refine .starting ?_ (fun s is => ?_) (acted.count.symm ▸ registered) ?_ stays
      · exact (acted.bound _ elsewhere).trans free
      · rcases acted.home is with old | same
        · exact unbound s old
        · exact other same
      · exact (acted.isAlive_eq other).trans alive
  | running bound alive known stays =>
      refine .running ((acted.bound _ elsewhere).trans bound) ((acted.isAlive_eq other).trans alive)
        (fun names => Nat.lt_of_lt_of_le (known names) acted.size) stays

namespace Replaying

structure Sound (p : Replaying) : Prop where
  quiet : p.debugger.Quiet
  own : p.debugger.host.OwnThreads
  announced : p.recorder.announced = none
  distinct : ∀ {i j : Nat} {t u : ReplayThread Error}, p.threads[i]? = some t →
    p.threads[j]? = some u → i ≠ j → t.thread ≠ u.thread ∧ t.system ≠ u.system
  sound : ∀ {i : Nat} {t : ReplayThread Error}, p.threads[i]? = some t → t.Sound p.debugger
  owned : ∀ record ∈ p.recorder.records.toList, (p.debugger.owner? record.number).isSome

variable {p : Replaying}

theorem move_of_none {i : Nat} (missing : p.threads[i]? = none) : p.move i = p := by
  unfold move
  rw [missing]

theorem move_of_some {i : Nat} {t : ReplayThread Error} (is : p.threads[i]? = some t) :
    let moved := t.step Recorder.frontEnd (p.debugger, p.recorder)
    (p.move i).threads[i]? = some moved.1 ∧ ((p.move i).debugger, (p.move i).recorder) = moved.2 := by
  have inside : i < p.threads.length := (List.getElem?_eq_some_iff.mp is).1
  unfold move
  rw [is]
  exact ⟨List.getElem?_set_self inside, rfl⟩

theorem threads_move_ne {i j : Nat} (ne : i ≠ j) : (p.move i).threads[j]? = p.threads[j]? := by
  unfold move
  split
  · rfl
  · exact List.getElem?_set_ne ne

theorem threads_run_none {i : Nat} (missing : p.threads[i]? = none) (schedule : List Nat) :
    (p.run schedule).threads[i]? = none := by
  induction schedule generalizing p with
  | nil => exact missing
  | cons j schedule ih =>
      apply ih
      by_cases same : j = i
      · subst same
        rw [move_of_none missing, missing]
      · rw [threads_move_ne same, missing]

theorem Sound.moved (h : p.Sound) {i : Nat} {t : ReplayThread Error} (is : p.threads[i]? = some t) :
    t.Moved (t.step Recorder.frontEnd (p.debugger, p.recorder)).1 (p.debugger, p.recorder)
      ((p.move i).debugger, (p.move i).recorder) := by
  rw [(move_of_some is).2]
  exact (h.sound is).step h.quiet h.own h.announced

theorem Sound.move (h : p.Sound) (i : Nat) : (p.move i).Sound := by
  cases is : p.threads[i]? with
  | none =>
      rw [move_of_none is]
      exact h
  | some t =>
      obtain ⟨same, works, _, sound⟩ := h.moved is
      have here := (move_of_some is).1
      have known {j : Nat} {u : ReplayThread Error} (is' : (p.move i).threads[j]? = some u) :
          ∃ v, p.threads[j]? = some v ∧ u.thread = v.thread ∧ u.system = v.system := by
        by_cases ne : i = j
        · subst ne
          cases here.symm.trans is'
          exact ⟨t, is, same.1, same.2.1⟩
        · exact ⟨u, (threads_move_ne ne).symm.trans is', rfl, rfl⟩
      refine ⟨works.quiet, works.host.own h.own, works.announced, fun is' is'' ne => ?_, fun {j u} is' => ?_,
        fun record member => ?_⟩
      · obtain ⟨_, was, thread, system⟩ := known is'
        obtain ⟨_, was', thread', system'⟩ := known is''
        rw [thread, thread', system, system']
        exact h.distinct was was' ne
      · by_cases ne : i = j
        · subst ne
          cases here.symm.trans is'
          exact sound
        · have was := (threads_move_ne ne).symm.trans is'
          have apart := h.distinct was is (Ne.symm ne)
          exact (h.sound was).of_acted works.host apart.1 apart.2
      · obtain ⟨new, added, owned⟩ := works.records
        rw [added] at member
        rcases List.mem_append.mp member with old | new
        · obtain ⟨other, owns⟩ := Option.isSome_iff_exists.mp (h.owned record old)
          rw [works.owners owns]
          rfl
        · rw [owned record new]
          rfl

theorem Sound.run (h : p.Sound) (schedule : List Nat) : (p.run schedule).Sound := by
  induction schedule generalizing p with
  | nil => exact h
  | cons i schedule ih => exact ih (h.move i)

theorem Sound.recordsOf_move (h : p.Sound) {i : Nat} {t : ReplayThread Error} (is : p.threads[i]? = some t)
    {new : List Record} (added : (p.move i).recorder.records.toList = p.recorder.records.toList ++ new) :
    (p.move i).recordsOf i = p.recordsOf i ++ new.map Record.unnumbered := by
  obtain ⟨same, works, _⟩ := h.moved is
  unfold Replaying.recordsOf
  rw [is, (move_of_some is).1]
  change EventDebugger.recordsOf _ _ = _
  rw [same.1, works.recordsOf_eq h.owned added, if_pos rfl]

theorem Sound.recordsOf_move_ne (h : p.Sound) {i j : Nat} (ne : i ≠ j) :
    (p.move i).recordsOf j = p.recordsOf j := by
  cases is : p.threads[i]? with
  | none => rw [move_of_none is]
  | some t =>
      obtain ⟨same, works, _⟩ := h.moved is
      obtain ⟨new, added, _⟩ := works.records
      unfold Replaying.recordsOf
      rw [threads_move_ne ne]
      cases is' : p.threads[j]? with
      | none => rfl
      | some u =>
          change EventDebugger.recordsOf _ _ = _
          rw [works.recordsOf_eq h.owned added, if_neg (h.distinct is' is (Ne.symm ne)).1, List.append_nil]

end Replaying

end EventDebugger
