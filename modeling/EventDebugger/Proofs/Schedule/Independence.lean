import EventDebugger.Proofs.Schedule.System

/-!
# The records of a thread under every schedule

A run of many threads is compared with the run in which a single one of them moves, as often as in the
first. What the thread can see, and with it what is recorded of it, is alike in both.

* `ReplayThread.Twin.step`: the thread moves in both runs.
* `ReplayThread.Twin.others`: another thread moves in the first run.
* `Replaying.run_alone`: the records of a thread are those of its moves alone.
-/

namespace EventDebugger

inductive ReplayPhase.Alike (m : Matching) : ReplayPhase Error → ReplayPhase Error → Prop
  | starting : Alike m .starting .starting
  | running {x y : Activations} (activations : x.Alike m y) (actions : List Action) :
      Alike m (.running x actions) (.running y actions)
  | exited (result : HookResult Error) : Alike m (.exited result) (.exited result)

structure ReplayThread.Twin (m : Matching) (t t' : ReplayThread Error) (p q : Debugger × Recorder) :
    Prop where
  same : t'.thread = t.thread ∧ t'.system = t.system ∧ t'.steps = t.steps
  phases : t.phase.Alike m t'.phase
  rules : q.1.rules = p.1.rules
  mode : q.2.mode = p.2.mode
  hosts : t.Goes → p.1.host.Alike m t.thread q.1.host
  contexts : t.Goes → Option.Rel (Context.Alike m) (p.1.contextFor? t.thread) (q.1.contextFor? t.thread)

theorem Host.Alike.enterScope {m : Matching} {thread : Thread} {system : Nat} {a b : Host}
    (h : a.Alike m thread b) (bound : a.boundTo? system = some thread)
    (bound' : b.boundTo? system = some thread) {scope scope' : Scope} (scopes : scope.Alike m scope') :
    (a.enterScope system scope).Alike m thread (b.enterScope system scope') := by
  unfold Host.enterScope
  simp only [currentThread_of_bound bound, currentThread_of_bound bound']
  exact h.updateThread (f := fun record => { record with scope }) (g := fun record => { record with scope := scope' })
    (fun _ => ⟨rfl, rfl⟩) (fun _ => ⟨rfl, rfl⟩) fun _ => scopes

theorem Host.Alike.bind {m : Matching} {thread : Thread} {a b : Host} (h : a.Alike m thread b)
    (system : Nat) : (a.bind system thread).Alike m thread (b.bind system thread) := by
  have updated := h.updateThread (f := fun record => { record with systemThread := some system })
    (g := fun record => { record with systemThread := some system }) (fun _ => ⟨rfl, rfl⟩)
    (fun _ => ⟨rfl, rfl⟩) id
  exact ⟨updated.scopes, updated.scope, updated.ofDebugger⟩

theorem Event.Alike.scope {m : Matching} {event event' : Event} (h : event.Alike m event')
    {scope scope' : Scope} (placed : event.scope = some scope) (placed' : event'.scope = some scope') :
    scope.Alike m scope' := by
  cases h with
  | intro kinds scopes =>
      rw [placed] at scopes
      cases placed'
      cases scopes with
      | some scopes => exact scopes

namespace ReplayThread

theorem alike_notified {m m' : Matching} {thread : Thread} {system : Nat} {x y : Activations}
    {a b : Debugger} {ra rb : Recorder} {action : Action} {event event' : Event}
    (le : ∀ {c c'}, m c c' → m' c c') (quiet : a.Quiet) (quiet' : b.Quiet) (settled : ra.announced = none)
    (settled' : rb.announced = none) (bound : a.host.boundTo? system = some thread)
    (bound' : b.host.boundTo? system = some thread) (alive : a.host.isAlive thread)
    (alive' : b.host.isAlive thread) (rules : b.rules = a.rules) (mode : rb.mode = ra.mode)
    (contexts : Option.Rel (Context.Alike m) (a.contextFor? thread) (b.contextFor? thread))
    (hosts : (action.perform thread x a.host).host.Alike m' thread (action.perform thread y b.host).host)
    (events : event.Alike m' event') (stays : event.isExit = false) {scope scope' : Scope}
    (scopes : scope.Alike m' scope') :
    let before := { a with host := (action.perform thread x a.host).host.enterScope system scope }
    let before' := { b with host := (action.perform thread y b.host).host.enterScope system scope' }
    ∃ result after after', handleEvent Recorder.frontEnd system event (before, ra) = (.finished result, after) ∧
      handleEvent Recorder.frontEnd system event' (before', rb) = (.finished result, after') ∧
      after.1.Matches m' system thread after'.1 ∧ Recorder.Same ra rb after.2 after'.2 := by
  intro before before'
  obtain ⟨worked, boundTo, lives⟩ := action.entered x quiet settled bound alive scope
  obtain ⟨worked', boundTo', lives'⟩ :=
    action.entered y quiet' settled' bound' alive' scope'
  have performs := action.performs thread system x a.host
  have performs' := action.performs thread system y b.host
  have matched : before.Matches m' system thread before' :=
    { quiet := worked.quiet
      quiet' := worked'.quiet
      bound := boundTo
      bound' := boundTo'
      alive := lives
      alive' := lives'
      rules := worked'.rules.trans (rules.trans worked.rules.symm)
      hosts := hosts.enterScope ((performs.same.boundTo?_eq system).trans bound)
        ((performs'.same.boundTo?_eq system).trans bound') scopes
      contexts := rel_imp (fun alike => alike.mono le) contexts }
  obtain ⟨result, after, handles, -⟩ := worked.quiet.handled boundTo stays settled
  obtain ⟨result', after', handles', -⟩ :=
    worked'.quiet.handled boundTo' (events.isExit_eq.trans stays) settled'
  have both := matched.handleEvent events stays mode settled settled'
  rw [handles, handles'] at both
  obtain ⟨ends, after_alike, recorders⟩ := both
  cases ends
  exact ⟨_, _, _, handles, handles', after_alike, recorders⟩

theorem Twin.of_moved {m n : Matching} {t t' u u' : ReplayThread Error} {p q p' q' : Debugger × Recorder}
    (h : t.Twin m t' p q) (moved : t.Moved u p p') (moved' : t'.Moved u' q q')
    (phases : u.phase.Alike n u'.phase) (hosts : u.Goes → p'.1.host.Alike n t.thread q'.1.host)
    (contexts : u.Goes →
      Option.Rel (Context.Alike n) (p'.1.contextFor? t.thread) (q'.1.contextFor? t.thread)) :
    u.Twin n u' p' q' := by
  obtain ⟨thread, system, steps⟩ := h.same
  obtain ⟨thread₁, system₁, steps₁⟩ := moved.same
  obtain ⟨thread₂, system₂, steps₂⟩ := moved'.same
  refine ⟨⟨?_, ?_, ?_⟩, phases, ?_, ?_, thread₁ ▸ hosts, thread₁ ▸ contexts⟩
  · rw [thread₂, thread, thread₁]
  · rw [system₂, system, system₁]
  · rw [steps₂, steps, steps₁]
  · exact moved'.works.rules.trans (h.rules.trans moved.works.rules.symm)
  · exact moved'.works.mode.trans (h.mode.trans moved.works.mode.symm)

theorem Twin.step {m : Matching} {t t' : ReplayThread Error} {a b : Debugger} {ra rb : Recorder}
    (h : t.Twin m t' (a, ra) (b, rb)) (sound : t.Sound a) (sound' : t'.Sound b) (quiet : a.Quiet)
    (quiet' : b.Quiet) (own : a.host.OwnThreads) (own' : b.host.OwnThreads)
    (settled : ra.announced = none) (settled' : rb.announced = none) :
    ∃ m' : Matching, (∀ {c c'}, m' c c' → m c c' ∨ a.host.scopes.cells.size ≤ c) ∧
      (t.step Recorder.frontEnd (a, ra)).1.Twin m' (t'.step Recorder.frontEnd (b, rb)).1
        (t.step Recorder.frontEnd (a, ra)).2 (t'.step Recorder.frontEnd (b, rb)).2 ∧
      Recorder.Same ra rb (t.step Recorder.frontEnd (a, ra)).2.2 (t'.step Recorder.frontEnd (b, rb)).2.2 := by
  have moved := sound.step (r := ra) quiet own settled
  have moved' := sound'.step (r := rb) quiet' own' settled'
  have twin {n : Matching} := h.of_moved (n := n) moved moved'
  have unrecorded : Recorder.Same ra rb ra rb := .refl h.mode (settled'.trans settled.symm)
  revert twin
  clear moved moved'
  obtain ⟨thread, system, steps, phase⟩ := t
  obtain ⟨thread', system', steps', phase'⟩ := t'
  obtain ⟨⟨rfl, rfl, rfl⟩, phases, rules, mode, hosts, contexts⟩ := h
  cases phases with
  | exited result =>
      intro twin
      exact ⟨m, .inl, twin (.exited result) hosts contexts, unrecorded⟩
  | starting =>
      have hosts := hosts nofun
      have contexts := contexts nofun
      rw [step_starting, step_starting]
      intro twin
      have le {c c' : Nat} (matched : m c c') := m.le_extend a.host.scopes.cells.size b.host.scopes.cells.size matched
      refine ⟨m.extend a.host.scopes.cells.size b.host.scopes.cells.size, fun {c c'} matched => ?_, twin ?_ ?_ ?_,
        unrecorded⟩
      · exact Or.imp_right (fun ⟨same, _⟩ => Nat.le_of_eq same.symm) matched
      · have root := Scope.Alike.entered m a.host.scopes.cells.size b.host.scopes.cells.size
        have started : (Activations.start ⟨a.host.scopes.cells.size, none⟩).Alike _
          (Activations.start ⟨b.host.scopes.cells.size, none⟩) := ⟨.intro _ root, .nil⟩
        exact .running started _
      · exact fun _ => (hosts.withScopes le hosts.scopes.extend).bind _
      · exact fun _ => rel_imp (fun alike => alike.mono le) contexts
  | @running x y activations actions =>
      have hosts := hosts nofun
      have contexts := contexts nofun
      cases sound with
      | running bound alive known stays =>
      cases sound' with
      | running bound' alive' _ _ =>
      cases actions with
      | nil =>
          rw [step_finish _ _ _ _ _ _ quiet.unkept, step_finish _ _ _ _ _ _ quiet'.unkept]
          intro twin
          exact ⟨m, .inl, twin (.exited _) (fun goes => absurd rfl (goes _)) (fun goes => absurd rfl (goes _)),
            unrecorded⟩
      | cons action actions =>
          obtain ⟨m', le, new, performed, performs, notified⟩ := action.alike_perform activations hosts
          have acts := action.performs thread' system' x a.host
          have acts' := action.performs thread' system' y b.host
          cases noted : (action.perform thread' x a.host).event with
          | none =>
              cases noted' : (action.perform thread' y b.host).event with
              | none =>
                  rw [step_silent _ _ _ _ _ _ _ noted, step_silent _ _ _ _ _ _ _ noted']
                  intro twin
                  exact ⟨m', new, twin (.running performed actions) (fun _ => performs)
                    (fun _ => rel_imp (fun alike => alike.mono le) contexts), unrecorded⟩
              | some =>
                  rw [noted, noted'] at notified
                  cases notified
          | some event =>
              cases noted' : (action.perform thread' y b.host).event with
              | none =>
                  rw [noted, noted'] at notified
                  cases notified
              | some event' =>
                  rw [noted, noted'] at notified
                  cases notified with
                  | some events =>
                  obtain ⟨scope, placed⟩ := acts.placed noted
                  obtain ⟨scope', placed'⟩ := acts'.placed noted'
                  have scopes : scope.Alike m' scope' := events.scope placed placed'
                  have remains : event.isExit = false :=
                    acts.stays (fun same => stays (same ▸ List.mem_cons_self)) noted
                  obtain ⟨result, _, _, handles, handles', after, recorders⟩ := alike_notified le quiet quiet'
                    settled settled' bound bound' alive alive' rules mode contexts performs events remains scopes
                  rw [step_event _ _ _ _ _ _ _ noted placed handles, step_event _ _ _ _ _ _ _ noted' placed' handles']
                  cases result with
                  | error error =>
                      intro twin
                      exact ⟨m', new, twin (.exited _) (fun goes => absurd rfl (goes _))
                        (fun goes => absurd rfl (goes _)), recorders⟩
                  | ok =>
                      intro twin
                      exact ⟨m', new, twin (.running performed actions) (fun _ => after.hosts)
                        (fun _ => after.contexts), recorders⟩

theorem Twin.others {m : Matching} {t t' : ReplayThread Error} {p p' q : Debugger × Recorder}
    (h : t.Twin m t' p q) (sound : t.Sound p.1) {other : Thread} {system : Nat} {written : Nat → Prop}
    (works : Works other system written p p') (ne : t.thread ≠ other)
    (apart : t.Goes → ∀ {c c'}, written c → ¬ m c c') : t.Twin m t' p' q := by
  refine ⟨h.same, h.phases, h.rules.trans works.rules.symm, h.mode.trans works.mode.symm, fun goes => ?_,
    fun goes => ?_⟩
  · have hosts := h.hosts goes
    have record := works.host.records t.thread ne
    refine ⟨⟨fun {c c'} matched => ?_, fun {c c'} matched => ?_, hosts.scopes.unique⟩, ?_, ?_⟩
    · rw [works.host.cells c (hosts.scopes.known matched).1 fun wrote => apart goes wrote matched]
      exact hosts.scopes.read matched
    · obtain ⟨known, known'⟩ := hosts.scopes.known matched
      exact ⟨Nat.lt_of_lt_of_le known works.host.size, known'⟩
    · rw [record]
      exact hosts.scope
    · have ofDebugger := hosts.ofDebugger
      unfold Host.isDebuggerThread at ofDebugger ⊢
      rw [record]
      exact ofDebugger
  · rw [works.contexts ne (sound.alive goes)]
    exact h.contexts goes

end ReplayThread

/-! ## Schedules -/

namespace Replaying

variable {m : Matching} {i : Nat} {t t' : ReplayThread Error} {p q : Replaying}

structure SameFor (m : Matching) (i : Nat) (t t' : ReplayThread Error) (p q : Replaying) : Prop where
  sound : p.Sound
  sound' : q.Sound
  isThread : p.threads[i]? = some t
  isThread' : q.threads[i]? = some t'
  twin : t.Twin m t' (p.debugger, p.recorder) (q.debugger, q.recorder)
  records : p.recordsOf i = q.recordsOf i
  /-- No other thread of the first run writes a matched cell. -/
  apart : t.Goes → ∀ {j : Nat} {u : ReplayThread Error}, j ≠ i → p.threads[j]? = some u →
    ∀ {c c' : Nat}, u.Names c → ¬ m c c'

theorem SameFor.own (h : SameFor m i t t' p q) : ∃ m' u u', SameFor m' i u u' (p.move i) (q.move i) := by
  have sound := h.sound.sound h.isThread
  have sound' := h.sound'.sound h.isThread'
  obtain ⟨m', new, twin, recorders⟩ := h.twin.step sound sound' h.sound.quiet h.sound'.quiet h.sound.own
    h.sound'.own h.sound.announced h.sound'.announced
  have here := move_of_some h.isThread
  have here' := move_of_some h.isThread'
  rw [← here.2, ← here'.2] at twin recorders
  refine ⟨m', _, _, h.sound.move i, h.sound'.move i, here.1, here'.1, twin, ?_,
    fun goes {j u} ne is {c c'} names matched => ?_⟩
  · obtain ⟨_, _, _, _, added, added', same⟩ := recorders
    rw [h.sound.recordsOf_move h.isThread added, h.sound'.recordsOf_move h.isThread' added', h.records, same]
  · have was := (threads_move_ne (Ne.symm ne)).symm.trans is
    rcases new matched with old | new
    · exact h.apart goes.of_step ne was names old
    · exact absurd ((h.sound.sound was).names_lt names) (Nat.not_lt.mpr new)

theorem SameFor.other (h : SameFor m i t t' p q) {j : Nat} (ne : j ≠ i) : SameFor m i t t' (p.move j) q := by
  cases is : p.threads[j]? with
  | none =>
      rw [move_of_none is]
      exact h
  | some u =>
      obtain ⟨same, works, names, _⟩ := h.sound.moved is
      have sound := h.sound.sound h.isThread
      have apart := (h.sound.distinct h.isThread is (Ne.symm ne)).1
      refine ⟨h.sound.move j, h.sound', ?_, h.isThread', ?_, ?_,
        fun goes {k v} other is' {c c'} named matched => ?_⟩
      · exact (threads_move_ne ne).trans h.isThread
      · exact h.twin.others sound works apart fun goes => h.apart goes ne is
      · exact (h.sound.recordsOf_move_ne ne).trans h.records
      · by_cases own : j = k
        · subst own
          cases (move_of_some is).1.symm.trans is'
          rcases names named with old | new
          · exact h.apart goes ne is old matched
          · exact absurd ((h.twin.hosts goes).scopes.known matched).1 (Nat.not_lt.mpr new.1)
        · exact h.apart goes other ((threads_move_ne own).symm.trans is') named matched

theorem SameFor.run (h : SameFor m i t t' p q) (schedule : List Nat) :
    ∃ m' u u', SameFor m' i u u' (p.run schedule) (q.run (schedule.filter (· == i))) := by
  induction schedule generalizing m t t' p q with
  | nil => exact ⟨m, t, t', h⟩
  | cons j schedule ih =>
      by_cases own : j = i
      · subst own
        obtain ⟨m', u, u', h'⟩ := h.own
        rw [List.filter_cons_of_pos (by simp)]
        exact ih h'
      · rw [List.filter_cons_of_neg (by simpa using own)]
        exact ih (h.other own)

/-- The thread with an index has exited. -/
def Exited (p : Replaying) (i : Nat) : Prop := ∃ t result, p.threads[i]? = some t ∧ t.phase = .exited result

theorem move_of_exited (h : p.Exited i) : p.move i = p := by
  obtain ⟨⟨thread, system, steps, phase⟩, result, is, rfl⟩ := h
  obtain ⟨threads, d, r⟩ := p
  have is : threads[i]? = some ⟨thread, system, steps, .exited result⟩ := is
  obtain ⟨inside, rest⟩ := List.getElem?_eq_some_iff.mp is
  have same : threads.set i ⟨thread, system, steps, .exited result⟩ = threads := by
    rw [← rest]
    exact List.set_getElem_self inside
  unfold move
  simp only [is]
  change (⟨threads.set i ⟨thread, system, steps, .exited result⟩, d, r⟩ : Replaying) = _
  rw [same]

theorem run_of_exited (h : p.Exited i) (n : Nat) : p.run (.replicate n i) = p := by
  induction n with
  | zero => rfl
  | succ n ih =>
      rw [List.replicate_succ]
      change (p.move i).run _ = p
      rw [move_of_exited h, ih]

theorem run_append (p : Replaying) (u w : List Nat) : p.run (u ++ w) = (p.run u).run w := List.foldl_append

theorem run_more {n k : Nat} (h : (p.run (.replicate n i)).Exited i) (le : n ≤ k) :
    p.run (.replicate k i) = p.run (.replicate n i) := by
  obtain ⟨more, rfl⟩ := Nat.exists_eq_add_of_le le
  rw [List.replicate_add, run_append, run_of_exited h]

theorem SameFor.exited (h : SameFor m i t t' p q) (exited : p.Exited i) : q.Exited i := by
  obtain ⟨u, result, is, phase⟩ := exited
  cases h.isThread.symm.trans is
  have phases := h.twin.phases
  rw [phase] at phases
  generalize own : t'.phase = phase' at phases
  cases phases with
  | exited => exact ⟨t', result, h.isThread', own⟩

theorem SameFor.run_alone (h : SameFor m i t t' p q) (schedule : List Nat) :
    (p.run schedule).recordsOf i = (q.run (.replicate (schedule.count i) i)).recordsOf i ∧
      ((p.run schedule).Exited i → (q.run (.replicate (schedule.count i) i)).Exited i) := by
  obtain ⟨m', u, u', same⟩ := h.run schedule
  rw [← List.filter_beq]
  exact ⟨same.records, same.exited⟩

theorem SameFor.independent (h : SameFor m i t t' p p) {u w : List Nat}
    (fair : u.count i = w.count i ∨ (p.run u).Exited i ∧ (p.run w).Exited i) :
    (p.run u).recordsOf i = (p.run w).recordsOf i := by
  obtain ⟨first, exits⟩ := h.run_alone u
  obtain ⟨second, exits'⟩ := h.run_alone w
  rw [first, second]
  rcases fair with same | ⟨exited, exited'⟩
  · rw [same]
  · rcases Nat.le_total (u.count i) (w.count i) with le | le
    · rw [run_more (exits exited) le]
    · rw [run_more (exits' exited') le]

end Replaying

end EventDebugger
