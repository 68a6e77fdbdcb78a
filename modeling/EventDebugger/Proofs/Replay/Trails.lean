import EventDebugger.Proofs.Dispatch.Outline
import EventDebugger.Proofs.Replay.Nesting
import EventDebugger.Proofs.Replay.System
import EventDebugger.Proofs.Ticket.Reshaping
import EventDebugger.Replay.Activation

/-!
# What frames show of activations

The frame of an activation is told its method and its scope when the activation is entered, executes a line or
raises. Other events tell it something else: a native call without a frame of its own its method, a class body
that no method runs. A block has the frame of the native call that runs it, which shows the native method and
the variables around the block until the block executes a line or raises.

* `Frame.Shows`: what the frame of an activation shows.
* `shades_perform`: an action and its event keep the frames of all activations.
* `Shades.frame`: where code of the program runs, the frames are those of the activations, in order.
-/

namespace EventDebugger

/-- What an activation did last of which its frame was told. -/
inductive Notice where
  /-- It was entered, executed a line or raised. -/
  | itself
  /-- It opened a class body. -/
  | body
  /-- It called a native method without a frame of its own. -/
  | native
deriving DecidableEq, Repr

/-- What the actions of a thread say about an activation and its frame. -/
structure Trail where
  type : Option TypeRef
  /-- The native method that runs a block which executed no line and raised nothing yet. -/
  runner : Option String
  last : Notice
deriving DecidableEq, Repr

/-- The trails of the activations, the innermost one first, and the native method that was called last. -/
structure Trails where
  own : List Trail
  native : Option String
deriving DecidableEq, Repr

namespace Trails

def start : Trails := ⟨[⟨some ⟨"Object"⟩, none, .itself⟩], none⟩

def type (trails : Trails) : Option TypeRef := trails.own.head?.bind (·.type)

def tell (trails : Trails) (f : Trail → Trail) : Trails := { trails with own := trails.own.modifyHead f }

def enter (trails : Trails) (trail : Trail) : Trails := { trails with own := trail :: trails.own }

def leave (trails : Trails) : Trails := { trails with own := trails.own.tail }

/-- The trails after an action, where `opens` tells which native calls open frames. -/
def follow (opens : Option TypeRef → Bool → Bool) (trails : Trails) : Action → Trails
  | .line .. | .raise _ => trails.tell fun trail => { trail with runner := none, last := .itself }
  | .call _ type _ _ => trails.enter ⟨(type.map TypeRef.mk).or trails.type, none, .itself⟩
  | .openClass name _ => (trails.tell fun trail => { trail with last := .body }).enter ⟨some ⟨name⟩, none, .itself⟩
  | .nativeCall method type blockGiven =>
      let trails := { trails with native := some method }
      if opens ((type.map TypeRef.mk).or trails.type) blockGiven then trails
      else trails.tell fun trail => { trail with last := .native }
  | .enterBlock => trails.enter ⟨trails.type, trails.native, .itself⟩
  | .callReturn | .closeClass | .leaveBlock => trails.leave
  | .nativeReturn .. | .bareReturn _ | .assign .. | .fallAsleep | .wakeUp | .rescue => trails

def after (opens : Option TypeRef → Bool → Bool) (actions : List Action) : Trails :=
  actions.foldl (follow opens) start

theorem after_concat (opens : Option TypeRef → Bool → Bool) (actions : List Action) (action : Action) :
    after opens (actions ++ [action]) = (after opens actions).follow opens action := by
  simp only [after, List.foldl_append, List.foldl_cons, List.foldl_nil]

/-- The innermost activation did nothing since its frame was told its method and its scope. -/
def Told (trails : Trails) : Prop :=
  ∃ trail rest, trails.own = trail :: rest ∧ trail.runner = none ∧ trail.last = .itself

end Trails

structure Frame.Shows (frame : Frame) (trail : Trail) (activation around : Activation) : Prop where
  locals : frame.locals = .live (some (if trail.runner.isSome then around.scope else activation.scope))
  method : trail.last = .itself → frame.method = trail.runner.or activation.method
  unnamed : trail.last = .body → frame.method = none

theorem Frame.shows_itself {frame : Frame} {trail : Trail} {activation around : Activation}
    (locals : frame.locals = .live (some (if trail.runner.isSome then around.scope else activation.scope)))
    (method : frame.method = trail.runner.or activation.method) (last : trail.last = .itself) :
    frame.Shows trail activation around where
  locals := locals
  method _ := method
  unnamed body := by cases last.symm.trans body

namespace Opener

def method : Opener → Option String
  | .call method | .native method _ _ | .block method _ | .left method _ => some method
  | .body => none

def enters : Opener → Bool
  | .call _ | .body | .block .. => true
  | .native .. | .left .. => false

def isBlock : Opener → Bool
  | .block .. => true
  | _ => false

end Opener

/-- The frames of the activations inside the top-level one, which has a frame itself if `lined` tells that it
executed a line, and those of native calls. -/
inductive Shades (opens : Option TypeRef → Bool → Bool) (root : Activation) (lined : Bool) :
    List Opener → List Activation → List Trail → CallStack → Prop where
  | root {trail : Trail} {stack : CallStack} (type : trail.type = root.type)
      (size : stack.length = if lined then 1 else 0) (shows : ∀ frame ∈ stack, frame.Shows trail root root) :
      Shades opens root lined [] [] [trail] stack
  | entered {opener : Opener} {openers : List Opener} {activation : Activation} {inner : List Activation}
      {trail : Trail} {trails : List Trail} {frame : Frame} {stack : CallStack} (enters : opener.enters)
      (opened : frame.openedFor = opener.method)
      (named : opener.isBlock = false → activation.method = opener.method)
      (type : trail.type = activation.type) (shows : frame.Shows trail activation (inner.headD root))
      (settled : Settled openers) (around : Shades opens root lined openers inner trails stack) :
      Shades opens root lined (opener :: openers) (activation :: inner) (trail :: trails) (frame :: stack)
  | native {openers : List Opener} {inner : List Activation} {trails : List Trail} {frame : Frame}
      {stack : CallStack} {method : String} {type : Option String} {blockGiven : Bool}
      (framed : opens ((type.map TypeRef.mk).or (inner.headD root).type) blockGiven)
      (opened : frame.openedFor = some method) (shows : frame.method = some method)
      (locals : frame.locals = .live (some (inner.headD root).scope)) (settled : Settled openers)
      (around : Shades opens root lined openers inner trails stack) :
      Shades opens root lined (.native method type blockGiven :: openers) inner trails (frame :: stack)
  | unframed {openers : List Opener} {inner : List Activation} {trails : List Trail} {stack : CallStack}
      {method : String} {type : Option String} {blockGiven : Bool}
      (unframed : ¬ opens ((type.map TypeRef.mk).or (inner.headD root).type) blockGiven)
      (settled : Settled openers) (around : Shades opens root lined openers inner trails stack) :
      Shades opens root lined (.native method type blockGiven :: openers) inner trails stack
  | left {openers : List Opener} {inner : List Activation} {trails : List Trail} {frame : Frame}
      {stack : CallStack} {method : String} {type : Option String} (opened : frame.openedFor = some method)
      (settled : Settled openers) (around : Shades opens root lined openers inner trails stack) :
      Shades opens root lined (.left method type :: openers) inner trails (frame :: stack)

namespace Shades

variable {opens : Option TypeRef → Bool → Bool} {root : Activation} {lined : Bool} {openers : List Opener}
  {inner : List Activation} {trails : List Trail} {stack stack' : CallStack}

theorem eq_of_size (size : stack.length = if lined then 1 else 0) : stack = [] ∨ ∃ frame, stack = [frame] := by
  split at size
  · exact .inr (List.length_eq_one_iff.mp size)
  · exact .inl (List.length_eq_zero_iff.mp size)

theorem rebound (h : Shades opens root lined openers inner trails stack) (same : stack'.unbound = stack.unbound) :
    Shades opens root lined openers inner trails stack' := by
  have top {frame : Frame} {stack stack' : CallStack} (same : stack'.unbound = CallStack.unbound (frame :: stack)) :
      ∃ binding, stack' = { frame with binding } :: stack := by
    cases stack' with
    | nil => cases same
    | cons frame' stack' =>
        simp only [CallStack.unbound, CallStack.modifyTop, List.cons.injEq, Frame.mk.injEq] at same
        obtain ⟨⟨method, openedFor, position, -, receiver, type, locals⟩, rfl⟩ := same
        exact ⟨frame'.binding, by rw [← method, ← openedFor, ← position, ← receiver, ← type, ← locals]⟩
  induction h generalizing stack' with
  | root type size shows =>
      rcases eq_of_size size with rfl | ⟨frame, rfl⟩
      · have empty : stack' = [] := by
          cases stack' with
          | nil => rfl
          | cons => cases same
        exact empty ▸ .root type size shows
      · obtain ⟨binding, rfl⟩ := top same
        have shown := List.forall_mem_singleton.mp shows
        exact .root type size (List.forall_mem_singleton.mpr ⟨shown.locals, shown.method, shown.unnamed⟩)
  | entered enters opened named type shows settled around =>
      obtain ⟨binding, rfl⟩ := top same
      exact .entered enters opened named type ⟨shows.locals, shows.method, shows.unnamed⟩ settled around
  | native framed opened shows locals settled around =>
      obtain ⟨binding, rfl⟩ := top same
      exact .native framed opened shows locals settled around
  | unframed unframed settled around ih => exact .unframed unframed settled (ih same)
  | left opened settled around =>
      obtain ⟨binding, rfl⟩ := top same
      exact .left opened settled around

theorem type_eq (h : Shades opens root lined openers inner trails stack) :
    trails.head?.bind (·.type) = (inner.headD root).type := by
  induction h with
  | root type => exact type
  | entered enters opened named type => exact type
  | native _ _ _ _ _ _ ih | unframed _ _ _ ih | left _ _ _ ih => exact ih

theorem trails_ne (h : Shades opens root lined openers inner trails stack) : trails ≠ [] := by
  induction h with
  | root | entered => exact List.cons_ne_nil _ _
  | native _ _ _ _ _ _ ih | unframed _ _ _ ih | left _ _ _ ih => exact ih

theorem settled_tail {opener : Opener} (h : Shades opens root lined (opener :: openers) inner trails stack) :
    Settled openers := by
  cases h with
  | entered _ _ _ _ _ settled | native _ _ _ _ settled | unframed _ settled | left _ settled => exact settled

theorem size (h : Shades opens root lined openers inner trails stack) (settled : Settled openers) :
    stack.length = inner.length + if lined then 1 else 0 := by
  induction h with
  | root type size => exact size.trans (Nat.zero_add _).symm
  | entered enters opened named type shows below around ih =>
      rw [List.length_cons, List.length_cons, ih below]
      exact Nat.add_right_comm _ _ _
  | native | unframed | left => exact settled.elim

theorem frame (h : Shades opens root lined openers inner trails stack) (settled : Settled openers) {i : Nat}
    {frame : Frame} (is : stack[i]? = some frame) :
    ∃ activation trail, (inner ++ [root])[i]? = some activation ∧ trails[i]? = some trail ∧
      frame.Shows trail activation ((inner ++ [root])[i + 1]?.getD root) := by
  induction h generalizing i with
  | root type size shows =>
      rcases eq_of_size size with rfl | ⟨only, rfl⟩
      · cases is
      · obtain ⟨rfl, rfl⟩ : i = 0 ∧ only = frame := by
          cases i with
          | zero => exact ⟨rfl, Option.some.inj is⟩
          | succ => cases is
        exact ⟨root, _, rfl, rfl, shows _ List.mem_cons_self⟩
  | @entered _ _ _ inner _ _ _ _ enters opened named type shows below around ih =>
      cases i with
      | zero =>
          cases is
          have next : ((inner ++ [root])[0]?).getD root = inner.headD root := by cases inner <;> rfl
          exact ⟨_, _, rfl, rfl, next ▸ shows⟩
      | succ i => exact ih below is
  | native | unframed | left => exact settled.elim

theorem relocate {activation : Activation}
    (h : Shades opens root lined openers (activation :: inner) trails stack) (settled : Settled openers)
    (position : Position) :
    Shades opens root lined openers ({ activation with position } :: inner) trails stack ∧ stack ≠ [] := by
  cases h with
  | entered enters opened named type shows below around =>
      refine ⟨.entered enters opened named type ?_ below around, List.cons_ne_nil _ _⟩
      exact ⟨shows.locals, shows.method, shows.unnamed⟩
  | native | unframed | left => exact settled.elim

theorem tell (h : Shades opens root lined openers inner trails stack) (settled : Settled openers)
    {f : Frame → Frame} {g : Trail → Trail} (opened : ∀ frame, (f frame).openedFor = frame.openedFor)
    (type : ∀ trail, (g trail).type = trail.type)
    (shows : ∀ {frame trail around}, frame.Shows trail (inner.headD root) around →
      (f frame).Shows (g trail) (inner.headD root) around) :
    Shades opens root lined openers inner (trails.modifyHead g) (stack.modifyTop f) := by
  cases h with
  | root same size shown =>
      refine .root ((type _).trans same) ((CallStack.length_modifyTop _ f).trans size) ?_
      rcases eq_of_size size with rfl | ⟨frame, rfl⟩ <;> intro frame' member
      · cases member
      · cases List.mem_singleton.mp member
        exact shows (shown frame List.mem_cons_self)
  | entered enters opened' named same shown below around =>
      exact .entered enters ((opened _).trans opened') named ((type _).trans same) (shows shown) below around
  | native | unframed | left => exact settled.elim

end Shades

/-! ## Actions -/

def Performed.reshape (performed : Performed) (opens : Option TypeRef → Bool → Bool) (stack : CallStack) : CallStack :=
  performed.event.elim stack fun event => event.reshape opens stack

theorem CallStack.popMatching_opened {frame : Frame} {method : Option String} (opened : frame.openedFor = method)
    (stack : CallStack) : CallStack.popMatching (frame :: stack) method = stack :=
  opened ▸ popMatching_cons_self frame stack

theorem shows_moved {frame : Frame} {trail : Trail} {activation around : Activation} {event : Event}
    (method : event.method = activation.method) (scope : event.scope = some activation.scope) (position : Position) :
    (event.moved position false frame).Shows { trail with runner := none, last := .itself } activation around :=
  Frame.shows_itself (by simp [Event.moved, scope]) method rfl

section

variable {opens : Option TypeRef → Bool → Bool} {openers : List Opener} {activations : Activations} {lined : Bool}
  {trails : Trails} {stack : CallStack}

def ShadesAfter (opens : Option TypeRef → Bool → Bool) (activations : Activations) (lined : Bool) (trails : Trails)
    (stack : CallStack) (thread : Thread) (host : Host) (action : Action) (openers : List Opener) : Prop :=
  let performed := action.perform thread activations host
  Shades opens performed.activations.root (lined || action.isTopLine activations) openers
    performed.activations.inner (trails.follow opens action).own (performed.reshape opens stack)

variable (h : Shades opens activations.root lined openers activations.inner trails.own stack)
    (settled : Settled openers)
  (thread : Thread) (host : Host)

include h settled

theorem shades_line (file : String) (number : Nat) (conditional : Bool) :
    ShadesAfter opens activations lined trails stack thread host (.line file number conditional) openers := by
  obtain ⟨root, inner, raised⟩ := activations
  obtain ⟨trails, called⟩ := trails
  cases inner with
  | nil =>
      cases h with
      | root same size shows =>
          simp only [ShadesAfter, Action.perform, Action.isTopLine, List.isEmpty_nil, Bool.or_true, Performed.reshape,
            Option.elim, Event.reshape, Event.reshapeAt, Activations.event, Activations.modifyTop, Activations.top,
            List.headD_nil, Trails.follow, Trails.tell]
          -- Without a frame, the line opens one.
          rcases Shades.eq_of_size size with rfl | ⟨frame, rfl⟩ <;> refine .root same rfl fun frame' member => ?_
          · cases List.mem_singleton.mp member
            exact Frame.shows_itself rfl rfl rfl
          · cases List.mem_singleton.mp member
            exact shows_moved rfl rfl _
      | native | unframed | left => exact settled.elim
  | cons activation rest =>
      obtain ⟨moved, nonempty⟩ := h.relocate settled ⟨file, number⟩
      have filled : stack.isEmpty = false := List.isEmpty_eq_false_iff.mpr nonempty
      simp only [ShadesAfter, Action.perform, Action.isTopLine, List.isEmpty_cons, Bool.or_false, Performed.reshape,
        Option.elim, Event.reshape, Event.reshapeAt, Activations.event, Activations.modifyTop, filled,
        Bool.false_eq_true, if_false]
      exact moved.tell settled (fun _ => rfl) (fun _ => rfl) fun _ => shows_moved rfl rfl _

theorem shades_nativeCall (method : String) (type : Option String) (blockGiven : Bool) :
    ShadesAfter opens activations lined trails stack thread host (.nativeCall method type blockGiven)
      (.native method type blockGiven :: openers) := by
  obtain ⟨root, inner, raised⟩ := activations
  obtain ⟨trails, called⟩ := trails
  simp only [ShadesAfter, Action.perform, Action.isTopLine, Bool.or_false, Performed.reshape, Option.elim,
    Event.reshape, Event.reshapeAt, Activations.event, Activations.nativeEvent, Activations.top, Trails.follow]
  have same (native : Option String) : Trails.type ⟨trails, native⟩ = (inner.headD root).type := h.type_eq
  rw [same]
  split
  · next framed => exact .native framed rfl rfl rfl settled h
  · next unframed =>
      refine .unframed unframed settled (h.tell settled (fun _ => rfl) (fun _ => rfl) fun shown => ?_)
      exact ⟨shown.locals, fun last => (by cases last), fun last => (by cases last)⟩

theorem shades_openClass (name : String) (number : Option Nat) :
    ShadesAfter opens activations lined trails stack thread host (.openClass name number) (.body :: openers) := by
  simp only [ShadesAfter, Action.perform, Action.isTopLine, Bool.or_false]
  refine .entered rfl rfl (fun _ => rfl) rfl (Frame.shows_itself rfl rfl rfl) settled ?_
  refine h.tell settled (fun _ => rfl) (fun _ => rfl) fun shown => ?_
  exact ⟨shown.locals, fun last => (by cases last), fun _ => rfl⟩

end

theorem shades_nativeReturn {opens : Option TypeRef → Bool → Bool} {openers : List Opener} {activations : Activations}
    {lined : Bool} {trails : Trails} {stack : CallStack} {method : String} {type : Option String} {blockGiven : Bool}
    (h : Shades opens activations.root lined (.native method type blockGiven :: openers) activations.inner trails.own
      stack) (thread : Thread) (host : Host) :
    ShadesAfter opens activations lined trails stack thread host (.nativeReturn method type blockGiven) openers := by
  obtain ⟨root, inner, raised⟩ := activations
  obtain ⟨trails, called⟩ := trails
  simp only [ShadesAfter, Action.perform, Action.isTopLine, Bool.or_false, Performed.reshape, Option.elim,
    Event.reshape, Event.reshapeAt, Activations.event, Activations.nativeEvent, Activations.top]
  cases h with
  | entered enters => cases enters
  | native framed opened shows locals settled around =>
      rw [if_pos framed, CallStack.popMatching_opened opened]
      exact around
  | unframed unframed settled around =>
      rw [if_neg unframed]
      exact around

theorem shades_perform {opens : Option TypeRef → Bool → Bool} (opensBlock : ∀ type, opens type true)
    {action : Action} {openers openers' : List Opener} (nests : action.Nests openers openers')
    {activations : Activations} {lined : Bool} {trails : Trails} {stack : CallStack}
    (h : Shades opens activations.root lined openers activations.inner trails.own stack)
    (running : ∀ method type blockGiven, openers.head? = some (.native method type blockGiven) →
      trails.native = some method)
    (thread : Thread) (host : Host) : ShadesAfter opens activations lined trails stack thread host action openers' := by
  obtain ⟨root, inner, raised⟩ := activations
  obtain ⟨trails, called⟩ := trails
  -- What is called without a type of its own has that of the innermost activation.
  have type : Trails.type ⟨trails, called⟩ = (inner.headD root).type := h.type_eq
  cases nests with
  | line file number conditional settled => exact shades_line h settled thread host file number conditional
  | call type' file number settled other =>
      simp only [ShadesAfter, Action.perform, Action.isTopLine, Bool.or_false]
      refine .entered rfl rfl (fun _ => rfl) ?_ (Frame.shows_itself rfl rfl rfl) settled h
      exact congrArg ((type'.map TypeRef.mk).or ·) type
  | nativeCall type' blockGiven settled other => exact shades_nativeCall h settled thread host _ type' blockGiven
  | nativeReturn method type' blockGiven => exact shades_nativeReturn h thread host
  | blockReturn method type' =>
      simp only [ShadesAfter, Action.perform, Action.isTopLine, Bool.or_false, Performed.reshape, Option.elim,
        Event.reshape, Event.reshapeAt, Activations.event, Activations.nativeEvent, Activations.top, opensBlock,
          if_true]
      cases h with
      | entered enters => cases enters
      | left opened settled around =>
          rw [CallStack.popMatching_opened opened]
          exact around
  | enterBlock method type' =>
      simp only [ShadesAfter, Action.perform, Action.isTopLine, Bool.or_false]
      -- The block takes over the frame of the native call, which was made last.
      cases running method type' true rfl
      cases h with
      | entered enters => cases enters
      | native framed opened shows locals settled around =>
          exact .entered rfl opened (fun other => by cases other) type (Frame.shows_itself locals shows rfl)
            settled around
      | unframed unframed => exact absurd (opensBlock _) unframed
  | leaveBlock method type' =>
      simp only [ShadesAfter, Action.perform, Action.isTopLine, Bool.or_false]
      cases h with
      | entered enters opened named same shows settled around => exact .left opened settled around
  | openClass name number settled => exact shades_openClass h settled thread host name number
  | callReturn | closeClass =>
      simp only [ShadesAfter, Action.perform, Action.isTopLine, Bool.or_false]
      cases h with
      | entered enters opened named same shows settled around =>
          refine (congrArg (Shades opens root lined _ _ _) ?_).mpr around
          exact CallStack.popMatching_opened (opened.trans (named rfl).symm) _
  | assign | fallAsleep | wakeUp | rescue =>
      simp only [ShadesAfter, Action.perform, Action.isTopLine, Bool.or_false]
      exact h
  | raise className settled =>
      simp only [ShadesAfter, Action.perform, Action.isTopLine, Bool.or_false]
      exact h.tell settled (fun _ => rfl) (fun _ => rfl) fun _ => shows_moved rfl rfl _

theorem told_perform (opens : Option TypeRef → Bool → Bool) {action : Action} {openers openers' : List Opener}
    (nests : action.Nests openers openers') {trails : Trails} (known : trails.own ≠ []) {thread : Thread}
    {activations : Activations} {host : Host} {event : Event}
    (notifies : (action.perform thread activations host).event = some event) (calls : event.kind.mayCall) :
    Settled openers' ∧ (trails.follow opens action).Told := by
  obtain ⟨own, native⟩ := trails
  obtain ⟨trail, rest, rfl⟩ := List.exists_cons_of_ne_nil known
  cases nests with
  | line file number conditional settled | raise className settled => exact ⟨settled, _, rest, rfl, rfl, rfl⟩
  | call => exact ⟨trivial, _, _, rfl, rfl, rfl⟩
  | assign | fallAsleep | wakeUp | rescue | enterBlock | leaveBlock => cases notifies
  | callReturn | nativeCall | nativeReturn | blockReturn | openClass | closeClass =>
      cases notifies
      cases calls

end EventDebugger
