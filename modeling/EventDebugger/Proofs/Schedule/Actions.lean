import EventDebugger.Proofs.Schedule.Dispatch

/-!
# Actions of a thread

An action of a thread changes the record of that thread, the cells that its activations name and new
cells, and nothing else that another thread could see. In two runs whose activations are alike it does the
same.

* `Action.actedBy_perform`: what an action changes.
* `Action.alike_perform`: the same action in two runs.
-/

namespace EventDebugger

/-! ## What an action changes -/

structure Host.ActedBy (thread : Thread) (system : Nat) (written : Nat → Prop) (host host' : Host) :
    Prop where
  parents : host'.parents = host.parents
  count : host'.threadCount = host.threadCount
  records : ∀ other, other ≠ thread → host'.record? other = host.record? other
  bound : ∀ s, s ≠ system → host'.boundTo? s = host.boundTo? s
  home : ∀ {s other}, host'.boundTo? s = some other → host.boundTo? s = some other ∨ other = thread
  own : host.OwnThreads → host'.OwnThreads
  size : host.scopes.cells.size ≤ host'.scopes.cells.size
  cells : ∀ c < host.scopes.cells.size, ¬ written c → host'.scopes.read c = host.scopes.read c

namespace Host.ActedBy

variable {thread : Thread} {system : Nat} {written : Nat → Prop} {a b c : Host}

theorem refl (thread : Thread) (system : Nat) (written : Nat → Prop) (host : Host) :
    host.ActedBy thread system written host :=
  ⟨rfl, rfl, fun _ _ => rfl, fun _ _ => rfl, .inl, id, Nat.le_refl _, fun _ _ _ => rfl⟩

theorem trans (first : a.ActedBy thread system written b) (second : b.ActedBy thread system written c) :
    a.ActedBy thread system written c where
  parents := second.parents.trans first.parents
  count := second.count.trans first.count
  records other ne := (second.records other ne).trans (first.records other ne)
  bound s ne := (second.bound s ne).trans (first.bound s ne)
  home is := by
    rcases second.home is with old | own
    · exact first.home old
    · exact .inr own
  own h := second.own (first.own h)
  size := Nat.le_trans first.size second.size
  cells i known free := by
    rw [second.cells i (Nat.lt_of_lt_of_le known first.size) free, first.cells i known free]

theorem isAlive_eq (h : a.ActedBy thread system written b) {other : Thread} (ne : other ≠ thread) :
    b.isAlive other = a.isAlive other := by
  unfold isAlive
  rw [h.records other ne]

theorem record?_updateThread_ne (host : Host) {thread other : Thread} (f : ThreadRecord → ThreadRecord)
    (hf : ∀ record, (f record).thread = record.thread) (ne : other ≠ thread) :
    (host.updateThread thread f).record? other = host.record? other := by
  rw [host.record?_updateThread thread other f hf]
  cases found : host.record? other with
  | none => rfl
  | some record =>
      have home : record.thread ≠ thread := fun same => ne ((mem_of_record? found).2.symm.trans same)
      simp only [Option.map_some, if_neg home]

theorem of_updateThread (host : Host) (system : Nat) (written : Nat → Prop) (f : ThreadRecord → ThreadRecord)
    (hf : ∀ record, (f record).thread = record.thread ∧ (f record).systemThread = record.systemThread ∧
      (f record).alive = record.alive) :
    host.ActedBy thread system written (host.updateThread thread f) := by
  have same := host.sameThreads_updateThread thread f hf
  exact ⟨rfl, rfl, fun _ ne => record?_updateThread_ne host f (fun record => (hf record).1) ne,
    fun s _ => same.boundTo?_eq s, .inl, same.grows.own, Nat.le_refl _, fun _ _ _ => rfl⟩

theorem of_scopes {host : Host} {scopes : Scopes} (size : host.scopes.cells.size ≤ scopes.cells.size)
    (cells : ∀ c < host.scopes.cells.size, ¬ written c → scopes.read c = host.scopes.read c) :
    host.ActedBy thread system written { host with scopes } :=
  ⟨rfl, rfl, fun _ _ => rfl, fun _ _ => rfl, .inl, fun own => ⟨own.injective, own.registered, own.home⟩, size,
    cells⟩

theorem of_push (host : Host) (thread : Thread) (system : Nat) (written : Nat → Prop) :
    host.ActedBy thread system written { host with scopes := ⟨host.scopes.cells.push []⟩ } :=
  .of_scopes (by simp) fun c _ _ => Scopes.read_push _ c

theorem of_enterScope {host : Host} (bound : host.boundTo? system = some thread) (scope : Scope) :
    host.ActedBy thread system written (host.enterScope system scope) := by
  simp only [enterScope, currentThread_of_bound bound]
  exact of_updateThread host system written (fun record => { record with scope }) fun _ => ⟨rfl, rfl, rfl⟩

theorem of_bind {host : Host} (free : host.boundTo? system = none)
    (unbound : ∀ s, host.boundTo? s ≠ some thread) (registered : thread.id ≤ host.threadCount) :
    host.ActedBy thread system written (host.bind system thread) := by
  refine ⟨rfl, rfl, fun _ ne => ?_, fun s ne => ?_, fun {s other} is => ?_,
    fun own => ownThreads_bind own free unbound registered, Nat.le_refl _, fun _ _ _ => rfl⟩
  · exact record?_updateThread_ne host (fun record => { record with systemThread := some system })
      (fun _ => rfl) ne
  · rw [boundTo?_bind, if_neg ne]
  · rw [boundTo?_bind] at is
    split at is
    · exact .inr (Option.some.inj is).symm
    · exact .inl is

theorem of_exitThread {host : Host} (own : host.OwnThreads) (bound : host.boundTo? system = some thread) :
    host.ActedBy thread system written (host.exitThread thread) := by
  have record {other : Thread} (ne : other ≠ thread) :
      (host.updateThread thread fun record =>
        { record with alive := false, systemThread := none }).record? other = host.record? other :=
    record?_updateThread_ne host (fun record => { record with alive := false, systemThread := none })
      (fun _ => rfl) ne
  have same : (host.exitThread thread).parents = host.parents ∧
      (host.exitThread thread).scopes = host.scopes ∧
      ∀ other, other ≠ thread → (host.exitThread thread).record? other = host.record? other := by
    simp only [exitThread]
    split
    · exact ⟨rfl, rfl, fun _ _ => rfl⟩
    · split <;> exact ⟨rfl, rfl, fun _ ne => record ne⟩
  obtain ⟨parents, scopes, records⟩ := same
  refine ⟨parents, host.threadCount_exitThread thread, records, fun s ne => boundTo?_exitThread own bound ne,
    fun is => .inl (boundTo?_exitThread_le is), fun own => ownThreads_exitThread own bound, ?_, ?_⟩
  · exact Nat.le_of_eq (by rw [scopes])
  · intro c _ _
    rw [scopes]

end Host.ActedBy

/-! ## The cells of a thread -/

def Scope.Names (scope : Scope) (cell : Nat) : Prop := scope.methodCell = cell ∨ scope.blockCell = some cell

def Activations.Names (activations : Activations) (cell : Nat) : Prop :=
  activations.root.scope.Names cell ∨ ∃ activation ∈ activations.inner, activation.scope.Names cell

theorem Scope.names_entered (cell : Nat) {c : Nat} (h : (⟨cell, none⟩ : Scope).Names c) : c = cell := by
  rcases h with rfl | is
  · rfl
  · cases is

theorem Scope.names_assignedCell (scopes : Scopes) (scope : Scope) (name : String) :
    scope.Names (scopes.assignedCell scope name) := by
  unfold Scopes.assignedCell
  split
  · exact .inl rfl
  · next cell block =>
      split
      · exact .inl rfl
      · exact .inr block

namespace Activations

theorem names_top (activations : Activations) {c : Nat} (h : activations.top.scope.Names c) :
    activations.Names c := by
  obtain ⟨root, inner, raised⟩ := activations
  cases inner with
  | nil => exact .inl h
  | cons top rest => exact .inr ⟨top, List.mem_cons_self, h⟩

theorem names_push {activations : Activations} {activation : Activation} {c : Nat}
    (h : (activations.push activation).Names c) : activation.scope.Names c ∨ activations.Names c := by
  rcases h with root | ⟨inner, member, names⟩
  · exact .inr (.inl root)
  · rcases List.mem_cons.mp member with rfl | member
    · exact .inl names
    · exact .inr (.inr ⟨inner, member, names⟩)

theorem names_pop {activations : Activations} {c : Nat} (h : activations.pop.Names c) :
    activations.Names c := by
  rcases h with root | ⟨inner, member, names⟩
  · exact .inl root
  · exact .inr ⟨inner, List.mem_of_mem_tail member, names⟩

theorem names_modifyTop {activations : Activations} {f : Activation → Activation} {c : Nat}
    (keeps : ∀ activation, (f activation).scope = activation.scope)
    (h : (activations.modifyTop f).Names c) : activations.Names c := by
  obtain ⟨root, inner, raised⟩ := activations
  cases inner with
  | nil =>
      rcases h with own | ⟨_, member, _⟩
      · exact .inl (keeps root ▸ own)
      · cases member
  | cons top rest =>
      rcases h with own | ⟨inner, member, names⟩
      · exact .inl own
      · rcases List.mem_cons.mp member with rfl | member
        · exact .inr ⟨top, List.mem_cons_self, keeps top ▸ names⟩
        · exact .inr ⟨inner, List.mem_cons_of_mem _ member, names⟩

end Activations

/-! ## One action -/

structure Performs (thread : Thread) (system : Nat) (action : Action) (activations : Activations)
    (host : Host) (performed : Performed) : Prop where
  acted : host.ActedBy thread system activations.Names performed.host
  same : host.SameThreads performed.host
  names : ∀ {c}, performed.activations.Names c →
    activations.Names c ∨ host.scopes.cells.size ≤ c ∧ c < performed.host.scopes.cells.size
  placed : ∀ {event}, performed.event = some event → ∃ scope, event.scope = some scope
  stays : action ≠ .raise "SystemExit" → ∀ {event}, performed.event = some event → event.isExit = false

section

variable (thread : Thread) (system : Nat) {action : Action} {activations activations' : Activations}
  {host : Host} {event : Option Event}

theorem Performs.of_same (names : ∀ {c}, activations'.Names c → activations.Names c)
    (placed : ∀ {e}, event = some e → ∃ scope, e.scope = some scope)
    (stays : action ≠ .raise "SystemExit" → ∀ {e}, event = some e → e.isExit = false) :
    Performs thread system action activations host ⟨event, activations', host⟩ :=
  ⟨.refl _ _ _ _, .refl _, fun h => .inl (names h), placed, stays⟩

theorem Performs.of_push {activation : Activation}
    (names : ∀ {c}, activation.scope.Names c → activations.Names c ∨ c = host.scopes.cells.size)
    (placed : ∀ {e}, event = some e → ∃ scope, e.scope = some scope)
    (stays : ∀ {e}, event = some e → e.isExit = false) :
    Performs thread system action activations host
      ⟨event, activations.push activation, { host with scopes := ⟨host.scopes.cells.push []⟩ }⟩ := by
  refine ⟨.of_push _ _ _ _, ⟨rfl, rfl, rfl⟩, fun {c} h => ?_, placed, fun _ => stays⟩
  have new : c = host.scopes.cells.size →
      host.scopes.cells.size ≤ c ∧ c < (host.scopes.cells.push []).size := by
    rw [Array.size_push]
    omega
  rcases Activations.names_push h with own | old
  · exact (names own).imp_right new
  · exact .inl old

end

theorem Action.performs (action : Action) (thread : Thread) (system : Nat) (activations : Activations)
    (host : Host) :
    Performs thread system action activations host (action.perform thread activations host) := by
  have event (kind : EventKind) (acts : Activations) {e : Event} (is : some (acts.event kind) = some e) :
      ∃ scope, e.scope = some scope := by
    cases is
    exact ⟨_, rfl⟩
  have slept (status : ThreadStatus) :
      Performs thread system action activations host ⟨none, activations, host.setStatus thread status⟩ :=
    ⟨.of_updateThread host system _ (fun record => { record with status }) fun _ => ⟨rfl, rfl, rfl⟩,
      host.sameThreads_updateThread thread (fun record => { record with status }) fun _ => ⟨rfl, rfl, rfl⟩,
      .inl, nofun, fun _ => nofun⟩
  cases action with
  | line file number conditional =>
      refine .of_same thread system (fun {_} h => ?_) (fun {_} is => event _ _ is) fun _ {_} is => ?_
      · exact Activations.names_modifyTop (f := fun top => { top with position := ⟨file, number⟩ })
          (fun _ => rfl) h
      · cases is
        rfl
  | call method type file number =>
      refine .of_push thread system (fun {_} h => .inr (Scope.names_entered _ h))
        (fun {_} is => event _ _ is) fun {_} is => ?_
      cases is
      rfl
  | callReturn =>
      refine .of_same thread system Activations.names_pop (fun {_} is => event _ _ is) fun _ {_} is => ?_
      cases is
      rfl
  | nativeCall method type blockGiven =>
      refine .of_same thread system id (fun {_} is => ?_) fun _ {_} is => ?_
      · cases is
        exact ⟨_, rfl⟩
      · cases is
        rfl
  | nativeReturn method type blockGiven =>
      refine .of_same thread system id (fun {_} is => ?_) fun _ {_} is => ?_
      · cases is
        exact ⟨_, rfl⟩
      · cases is
        rfl
  | enterBlock =>
      refine .of_push thread system (fun {c} h => ?_) nofun nofun
      rcases h with rfl | is
      · exact .inl (activations.names_top (.inl rfl))
      · exact .inr (Option.some.inj is).symm
  | leaveBlock => exact .of_same thread system Activations.names_pop nofun fun _ => nofun
  | openClass name number =>
      refine .of_push thread system (fun {_} h => .inr (Scope.names_entered _ h))
        (fun {_} is => event _ _ is) fun {_} is => ?_
      cases is
      rfl
  | closeClass =>
      refine .of_same thread system Activations.names_pop (fun {_} is => event _ _ is) fun _ {_} is => ?_
      cases is
      rfl
  | bareReturn method =>
      refine .of_same thread system id (fun {_} is => ?_) fun _ {_} is => ?_
      · cases is
        exact ⟨_, rfl⟩
      · cases is
        rfl
  | assign name value =>
      refine ⟨.of_scopes (Nat.le_of_eq (Scopes.size_assign ..).symm) fun c known free => ?_, ⟨rfl, rfl, rfl⟩, .inl,
        nofun, fun _ => nofun⟩
      refine Scopes.read_write_ne _ _ _ fun same => free ?_
      rw [same]
      exact activations.names_top (Scope.names_assignedCell _ _ _)
  | fallAsleep => exact slept .sleeping
  | wakeUp => exact slept .running
  | raise className =>
      refine ⟨⟨rfl, rfl, fun _ _ => rfl, fun _ _ => rfl, .inl,
        fun own => ⟨own.injective, own.registered, own.home⟩, Nat.le_refl _, fun _ _ _ => rfl⟩, ⟨rfl, rfl, rfl⟩,
        .inl, fun {_} is => event _ _ is, fun other {_} is => ?_⟩
      cases is
      exact beq_eq_false_iff_ne.mpr fun exits => other (by rw [exits])
  | rescue => exact .of_same thread system id nofun fun _ => nofun

/-! ## The same action in two runs -/

section

variable {m : Matching} {x y : Activations} (h : x.Alike m y)
include h

namespace Activations.Alike

theorem top : x.top.Alike m y.top := by
  obtain ⟨root, inner, raised⟩ := x
  obtain ⟨root', inner', raised'⟩ := y
  have inners : List.Forall₂ (Activation.Alike m) inner inner' := h.inner
  cases inners with
  | nil => exact h.root
  | cons top rest => exact top

theorem modifyTop {f : Activation → Activation} (change : ∀ {a b}, Activation.Alike m a b → (f a).Alike m (f b)) :
    (x.modifyTop f).Alike m (y.modifyTop f) := by
  obtain ⟨root, inner, raised⟩ := x
  obtain ⟨root', inner', raised'⟩ := y
  have inners : List.Forall₂ (Activation.Alike m) inner inner' := h.inner
  cases inners with
  | nil => exact ⟨change h.root, .nil⟩
  | cons top rest => exact ⟨h.root, .cons (change top) rest⟩

theorem push {a b : Activation} (alike : a.Alike m b) : (x.push a).Alike m (y.push b) :=
  ⟨h.root, .cons alike h.inner⟩

theorem pop : x.pop.Alike m y.pop := by
  obtain ⟨root, inner, raised⟩ := x
  obtain ⟨root', inner', raised'⟩ := y
  have inners : List.Forall₂ (Activation.Alike m) inner inner' := h.inner
  cases inners with
  | nil => exact ⟨h.root, .nil⟩
  | cons top rest => exact ⟨h.root, rest⟩

theorem event {kind kind' : EventKind} (kinds : kind.Alike kind') :
    (x.event kind).Alike m (y.event kind') := by
  have top := h.top
  unfold Activations.event
  generalize x.top = a at top
  generalize y.top = b at top
  cases top with
  | intro scopes =>
      exact .intro ⟨kind, some a.position, some a.receiver, a.method, a.type, some a.scope⟩ kinds (.some scopes)

theorem nativeEvent {kind kind' : EventKind} (kinds : kind.Alike kind') (method : String)
    (type : Option String) : (x.nativeEvent kind method type).Alike m (y.nativeEvent kind' method type) := by
  have event := h.event kinds
  unfold Activations.nativeEvent
  generalize x.event kind = e at event
  generalize y.event kind' = e' at event
  cases event with
  | intro kinds scopes =>
      exact .intro { e with method := some method, enclosingType := (type.map TypeRef.mk).or e.enclosingType }
        kinds scopes

theorem called {s s' : Scope} (scopes : s.Alike m s') (method : String) (type file : Option String)
    (line : Option Nat) :
    (x.called method type file line s).Alike m (y.called method type file line s') := by
  have top := h.top
  unfold Activations.called
  generalize x.top = a at top
  generalize y.top = b at top
  cases top with
  | intro => exact .intro _ scopes

theorem classBody {s s' : Scope} (scopes : s.Alike m s') (name : String) (line : Option Nat) :
    (x.classBody name line s).Alike m (y.classBody name line s') := by
  have top := h.top
  unfold Activations.classBody
  generalize x.top = a at top
  generalize y.top = b at top
  cases top with
  | intro => exact .intro _ scopes

end Activations.Alike

end

theorem Host.Alike.withScopes {m m' : Matching} {thread : Thread} {a b : Host} (h : a.Alike m thread b)
    (le : ∀ {c c'}, m c c' → m' c c') {scopes scopes' : Scopes} (alike : scopes.Alike m' scopes') :
    ({ a with scopes } : Host).Alike m' thread { b with scopes := scopes' } :=
  ⟨alike, rel_imp (fun scopes => scopes.mono le) h.scope, h.ofDebugger⟩

theorem Host.record?_updateThread_self (host : Host) (thread : Thread) (f : ThreadRecord → ThreadRecord)
    (hf : ∀ record, (f record).thread = record.thread) :
    (host.updateThread thread f).record? thread = (host.record? thread).map f := by
  rw [record?_updateThread host thread thread f hf]
  cases found : host.record? thread with
  | none => rfl
  | some record => simp only [Option.map_some, (mem_of_record? found).2, if_true]

theorem Host.Alike.updateThread {m : Matching} {thread : Thread} {a b : Host} (h : a.Alike m thread b)
    {f g : ThreadRecord → ThreadRecord}
    (hf : ∀ record, (f record).thread = record.thread ∧ (f record).ofDebugger = record.ofDebugger)
    (hg : ∀ record, (g record).thread = record.thread ∧ (g record).ofDebugger = record.ofDebugger)
    (scopes : ∀ {r r' : ThreadRecord}, r.scope.Alike m r'.scope → (f r).scope.Alike m (g r').scope) :
    (a.updateThread thread f).Alike m thread (b.updateThread thread g) := by
  have own := a.record?_updateThread_self thread f fun record => (hf record).1
  have own' := b.record?_updateThread_self thread g fun record => (hg record).1
  refine ⟨h.scopes, ?_, ?_⟩
  · have scope := h.scope
    rw [own, own', Option.map_map, Option.map_map]
    generalize a.record? thread = record at scope ⊢
    generalize b.record? thread = record' at scope ⊢
    cases record with
    | none =>
        cases record' with
        | none => exact .none
        | some => cases scope
    | some record =>
        cases record' with
        | none => cases scope
        | some record' =>
            cases scope with
            | some alike => exact .some (scopes alike)
  · have ofDebugger := h.ofDebugger
    unfold isDebuggerThread at ofDebugger ⊢
    rw [own, own']
    cases record : a.record? thread with
    | none =>
        rw [record] at ofDebugger
        cases record' : b.record? thread with
        | none => rfl
        | some r =>
            rw [record'] at ofDebugger
            exact ((hg r).2).trans ofDebugger
    | some r =>
        rw [record] at ofDebugger
        cases record' : b.record? thread with
        | none =>
            rw [record'] at ofDebugger
            exact ofDebugger.trans (hf r).2.symm
        | some r' =>
            rw [record'] at ofDebugger
            exact ((hg r').2.trans ofDebugger).trans (hf r).2.symm

theorem Host.Alike.setStatus {m : Matching} {thread : Thread} {a b : Host} (h : a.Alike m thread b)
    (status : ThreadStatus) : (a.setStatus thread status).Alike m thread (b.setStatus thread status) :=
  h.updateThread (f := fun record => { record with status }) (g := fun record => { record with status })
    (fun _ => ⟨rfl, rfl⟩) (fun _ => ⟨rfl, rfl⟩) id

theorem Action.alike_perform (action : Action) {m : Matching} {thread : Thread} {x y : Activations} {a b : Host}
    (activations : x.Alike m y) (hosts : a.Alike m thread b) :
    ∃ m' : Matching, (∀ {c c'}, m c c' → m' c c') ∧
      (∀ {c c'}, m' c c' → m c c' ∨ a.scopes.cells.size ≤ c) ∧
      (action.perform thread x a).activations.Alike m' (action.perform thread y b).activations ∧
      (action.perform thread x a).host.Alike m' thread (action.perform thread y b).host ∧
      Option.Rel (Event.Alike m') (action.perform thread x a).event (action.perform thread y b).event := by
  have le {c c' : Nat} : m c c' → m.extend a.scopes.cells.size b.scopes.cells.size c c' := .inl
  have new {c c' : Nat} (matched : m.extend a.scopes.cells.size b.scopes.cells.size c c') :
      m c c' ∨ a.scopes.cells.size ≤ c := matched.imp_right fun ⟨same, _⟩ => Nat.le_of_eq same.symm
  have pushed := hosts.withScopes le hosts.scopes.extend
  have later := activations.mono le
  have top := activations.top
  cases action with
  | line file number conditional =>
      have moved := activations.modifyTop (f := fun top => { top with position := ⟨file, number⟩ })
        fun {a b} alike => by
          cases alike with
          | intro scopes => exact .intro { a with position := ⟨file, number⟩ } scopes
      exact ⟨m, id, .inl, moved, hosts, .some (moved.event (.same (.line conditional) nofun))⟩
  | call method type file number =>
      have called := later.push (later.called (.entered m _ _) method type file number)
      exact ⟨_, le, new, called, pushed, .some (called.event (.same .call nofun))⟩
  | callReturn =>
      exact ⟨m, id, .inl, activations.pop, hosts, .some (activations.event (.same .return nofun))⟩
  | nativeCall method type blockGiven =>
      have event := activations.nativeEvent (.same (.nativeCall blockGiven) nofun) method type
      exact ⟨m, id, .inl, activations, hosts, .some event⟩
  | nativeReturn method type blockGiven =>
      have event := activations.nativeEvent (.same (.nativeReturn blockGiven) nofun) method type
      exact ⟨m, id, .inl, activations, hosts, .some event⟩
  | enterBlock =>
      refine ⟨_, le, new, later.push ?_, pushed, .none⟩
      generalize x.top = inner at top ⊢
      generalize y.top = inner' at top ⊢
      cases top with
      | intro scopes => exact .intro { inner with scope := _ } (scopes.enteredBlock _ _)
  | leaveBlock => exact ⟨m, id, .inl, activations.pop, hosts, .none⟩
  | openClass name number =>
      have opened := later.push (later.classBody (.entered m _ _) name number)
      exact ⟨_, le, new, opened, pushed, .some (opened.event (.same .classOpen nofun))⟩
  | closeClass =>
      exact ⟨m, id, .inl, activations.pop, hosts, .some (activations.event (.same .classClose nofun))⟩
  | bareReturn method =>
      have event := activations.event (.same .return nofun)
      refine ⟨m, id, .inl, activations, hosts, .some ?_⟩
      generalize x.event .return = e at event ⊢
      generalize y.event .return = e' at event ⊢
      cases event with
      | intro kinds scopes => exact .intro { e with method := some method } kinds scopes
  | assign name value =>
      have scope : x.top.scope.Alike m y.top.scope := by
        generalize x.top = inner at top ⊢
        generalize y.top = inner' at top ⊢
        cases top with
        | intro scopes => exact scopes
      exact ⟨m, id, .inl, activations,
        hosts.withScopes id (hosts.scopes.assign scope name (Value.parse value)), .none⟩
  | fallAsleep => exact ⟨m, id, .inl, activations, hosts.setStatus .sleeping, .none⟩
  | wakeUp => exact ⟨m, id, .inl, activations, hosts.setStatus .running, .none⟩
  | raise className =>
      exact ⟨m, id, .inl, ⟨activations.root, activations.inner⟩, ⟨hosts.scopes, hosts.scope, hosts.ofDebugger⟩,
        .some (activations.event (.raise className _ _))⟩
  | rescue => exact ⟨m, id, .inl, ⟨activations.root, activations.inner⟩, hosts, .none⟩

end EventDebugger
