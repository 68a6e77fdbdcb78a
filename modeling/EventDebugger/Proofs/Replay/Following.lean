import EventDebugger.Proofs.Dispatch.Outline
import EventDebugger.Proofs.Tracking

/-!
# The frames of a thread

What is known of the frames of a thread stays true while other threads use the debugger, and while its
own thread does anything but have an event dispatched.

* `Debugger.serves_of_tracks`, `Debugger.serves_of_touches`, `Debugger.serves_of_end`: operations of one
  thread leave the frames of the others alone.
-/

namespace EventDebugger.Debugger

def outlineOf (d : Debugger) (thread : Thread) : Outline :=
  (d.contextOf? thread).elim [] fun id => (d.context id).outline

/-- The outline of the frames of a thread has a property, unless the events of the thread are ignored. -/
structure Shows (d : Debugger) (thread : Thread) (p : Outline → Prop) : Prop where
  heeded : ∀ {id}, d.contextOf? thread = some id → (d.context id).skipped = false
  outline : (∃ id, d.contextOf? thread = some id ∧ (d.context id).ignored) ∨ p (d.outlineOf thread)

/-- The outline of the frames of a thread has a property while the debugger is active. -/
def Follows (d : Debugger) (thread : Thread) (p : Outline → Prop) : Prop :=
  d.isStarted → d.Shows thread p

structure Attends (d : Debugger) (thread : Thread) (id : ContextId) (p : Outline → Prop) : Prop where
  found : d.contextOf? thread = some id
  heeded : (d.context id).skipped = false
  wanted : (d.context id).ignored = false
  outline : p (d.context id).outline

variable {d d' : Debugger} {thread : Thread} {id : ContextId} {p : Outline → Prop}

theorem outlineOf_eq (found : d.contextOf? thread = some id) :
    d.outlineOf thread = (d.context id).outline := by
  rw [outlineOf, found, Option.elim_some]

theorem outlineOf_unknown (unknown : d.contextOf? thread = none) : d.outlineOf thread = [] := by
  rw [outlineOf, unknown, Option.elim_none]

theorem Attends.shows (h : d.Attends thread id p) : d.Shows thread p := by
  refine ⟨fun found => ?_, .inr ?_⟩
  · cases h.found.symm.trans found
    exact h.heeded
  · rw [outlineOf_eq h.found]
    exact h.outline

theorem Shows.attends (h : d.Shows thread p) (found : d.contextOf? thread = some id)
    (wanted : (d.context id).ignored = false) : d.Attends thread id p := by
  refine ⟨found, h.heeded found, wanted, ?_⟩
  rw [← outlineOf_eq found]
  refine h.outline.resolve_left ?_
  rintro ⟨other, foundOther, ignored⟩
  cases found.symm.trans foundOther
  exact absurd (wanted.symm.trans ignored) Bool.false_ne_true

theorem Shows.imp {q : Outline → Prop} (h : d.Shows thread p) (imp : ∀ {outline}, p outline → q outline) :
    d.Shows thread q := ⟨h.heeded, h.outline.imp_right imp⟩

/-! ## Operations that keep the frames -/

theorem Shows.tracks (h : d.Shows thread p) (well : d.WellTracked) (alive : d.host.isAlive thread)
    (tracks : Tracks d d') : d'.Shows thread p := by
  cases known : d.contextOf? thread with
  | some id =>
      have found := tracks.found well alive known
      have same := tracks.core id (well.known known).1
      simp only [Context.core, Prod.mk.injEq] at same
      obtain ⟨_, skipped, ignored, stack⟩ := same
      refine ⟨fun found' => ?_, h.outline.imp (fun is => ⟨id, found, ?_⟩) fun is => ?_⟩
      · cases found.symm.trans found'
        rw [skipped]
        exact h.heeded known
      · obtain ⟨other, foundOther, isIgnored⟩ := is
        cases known.symm.trans foundOther
        rw [ignored]
        exact isIgnored
      · rw [outlineOf_eq known, Context.outline] at is
        rw [outlineOf_eq found, Context.outline, stack]
        exact is
  | none =>
      have fresh {id : ContextId} (found : d'.contextOf? thread = some id) :
          (d'.context id).stack = [] ∧ (d'.context id).skipped = false := by
        rcases tracks.origin well found with old | new
        · cases known.symm.trans old
        · exact tracks.fresh id new ((tracks.tracked well).known found).1
      refine ⟨fun found => (fresh found).2, h.outline.imp (fun is => ?_) fun is => ?_⟩
      · obtain ⟨other, foundOther, _⟩ := is
        cases known.symm.trans foundOther
      · rw [outlineOf_unknown known] at is
        cases now : d'.contextOf? thread with
        | none =>
            rw [outlineOf_unknown now]
            exact is
        | some id =>
            rw [outlineOf_eq now, Context.outline, (fresh now).1]
            exact is

theorem Attends.tracks (h : d.Attends thread id p) (well : d.WellTracked)
    (alive : d.host.isAlive thread) (tracks : Tracks d d') : d'.Attends thread id p := by
  have same := tracks.core id (well.known h.found).1
  simp only [Context.core, Prod.mk.injEq] at same
  refine (h.shows.tracks well alive tracks).attends (tracks.found well alive h.found) ?_
  rw [same.2.2.1]
  exact h.wanted

theorem contextOf?_congr (session : d'.session = d.session) (thread : Thread) :
    d'.contextOf? thread = d.contextOf? thread := by
  rw [contextOf?, session, contextOf?]

theorem Attends.congr (h : d.Attends thread id p) (session : d'.session = d.session)
    (context : d'.context id = d.context id) : d'.Attends thread id p :=
  ⟨(contextOf?_congr session thread).trans h.found, context ▸ h.heeded, context ▸ h.wanted,
    context ▸ h.outline⟩

theorem Shows.congr (h : d.Shows thread p) (session : d'.session = d.session)
    (contexts : ∀ id, d.contextOf? thread = some id → d'.context id = d.context id) :
    d'.Shows thread p := by
  have same := contextOf?_congr session thread
  refine ⟨fun {id} found => ?_, h.outline.imp (fun is => ?_) fun is => ?_⟩
  · rw [same] at found
    rw [contexts id found]
    exact h.heeded found
  · obtain ⟨id, found, ignored⟩ := is
    refine ⟨id, same.trans found, ?_⟩
    rw [contexts id found]
    exact ignored
  · cases known : d.contextOf? thread with
    | none =>
        rw [outlineOf_unknown known] at is
        rw [outlineOf_unknown (same.trans known)]
        exact is
    | some id =>
        rw [outlineOf_eq known] at is
        rw [outlineOf_eq (same.trans known), contexts id known]
        exact is

theorem WellTracked.touches {system : Nat} (well : d.WellTracked) (h : Touches system id d d') :
    d'.WellTracked := by
  refine ⟨fun active => well.coherent (h.session.symm.trans active), fun {session thread other} active stored => ?_⟩
  obtain ⟨known, home⟩ := well.home (h.session.symm.trans active) stored
  have same := h.traits other known
  simp only [Context.traits, Prod.mk.injEq] at same
  exact ⟨Nat.lt_of_lt_of_le known h.size, same.1.trans home⟩

theorem opensNativeFrame_congr (same : d'.settings.blockHostTypes = d.settings.blockHostTypes) :
    d'.opensNativeFrame = d.opensNativeFrame := by
  funext type blockGiven
  simp only [opensNativeFrame, same]

/-! ## Operations of one thread -/

structure Serves (thread : Thread) (d d' : Debugger) : Prop where
  host : d'.host = d.host
  tracked : d'.WellTracked
  opens : d'.opensNativeFrame = d.opensNativeFrame
  earlier : d'.isStarted → d.isStarted
  shows : ∀ {other p}, other ≠ thread → d.host.isAlive other → d'.isStarted →
    d.Shows other p → d'.Shows other p
  attends : ∀ {other id p}, other ≠ thread → d.host.isAlive other → d'.isStarted →
    d.Attends other id p → d'.Attends other id p

theorem serves_of_tracks (thread : Thread) (host : d'.host = d.host) (well : d.WellTracked)
    (earlier : d'.isStarted → d.isStarted) (tracks : Tracks d d') : Serves thread d d' :=
  ⟨host, tracks.tracked well, opensNativeFrame_congr tracks.blockHosts, earlier,
    fun _ alive _ h => h.tracks well alive tracks, fun _ alive _ h => h.tracks well alive tracks⟩

theorem serves_of_touches {system : Nat} (host : d'.host = d.host) (well : d.WellTracked)
    (known : id < d.contexts.size) (own : (d.context id).thread = thread)
    (touches : Touches system id d d') : Serves thread d d' := by
  have others {other : Thread} {id' : ContextId} (ne : other ≠ thread)
      (found : d.contextOf? other = some id') : d'.context id' = d.context id' := by
    obtain ⟨known', home⟩ := well.known found
    refine touches.others id' known' ?_
    rintro rfl
    exact ne (home.symm.trans own)
  refine ⟨host, well.touches touches, opensNativeFrame_congr (congrArg _ touches.settings), ?_,
    fun ne _ _ h => h.congr touches.session fun _ found => others ne found,
    fun ne _ _ h => h.congr touches.session (others ne h.found)⟩
  rw [isStarted, touches.session]
  exact fun started => started

theorem serves_of_end (thread : Thread) (host : d'.host = d.host)
    (settings : d'.settings = d.settings) (ended : d'.session = none) : Serves thread d d' := by
  have notStarted (started : d'.isStarted) : False := by
    rw [isStarted, ended] at started
    cases started
  exact ⟨host, .of_ended ended, opensNativeFrame_congr (congrArg _ settings),
    fun started => (notStarted started).elim, fun _ _ started => (notStarted started).elim,
    fun _ _ started => (notStarted started).elim⟩

end EventDebugger.Debugger
