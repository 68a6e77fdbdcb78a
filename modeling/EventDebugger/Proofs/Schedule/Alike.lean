import EventDebugger.Debugger.Dispatch
import EventDebugger.Replay.Activation
import Mathlib.Data.List.Forall2

/-!
# Runs that are alike

What a thread does in one run and in another differs in the numbers that the runs give out: the cells of
its scopes, the number of its context, the numbers of its exceptions. A matching tells which cells of the
one run stand for which cells of the other.

* `Scopes.Alike.assign`, `Scopes.Alike.extend`: matched cells hold the same variables.
* `Context.Alike.countLine`, `Context.Alike.returnFrom`: contexts that are alike count and return alike.
-/

namespace EventDebugger

abbrev Matching := Nat → Nat → Prop

def Matching.extend (m : Matching) (cell cell' : Nat) : Matching := fun c c' =>
  m c c' ∨ (c = cell ∧ c' = cell')

/-! ## What is alike -/

structure Scope.Alike (m : Matching) (a b : Scope) : Prop where
  method : m a.methodCell b.methodCell
  block : Option.Rel m a.blockCell b.blockCell

inductive BindingVars.Alike (m : Matching) : BindingVars → BindingVars → Prop
  | live {a b : Scope} (scope : Scope.Alike m a b) : Alike m (.live a) (.live b)
  | copied (vars : Vars) : Alike m (.copied vars) (.copied vars)

inductive Binding.Alike (m : Matching) : Binding → Binding → Prop
  | intro (receiver : Value) {a b : BindingVars} (vars : a.Alike m b) : Alike m ⟨receiver, a⟩ ⟨receiver, b⟩

inductive FrameLocals.Alike (m : Matching) : FrameLocals → FrameLocals → Prop
  | live {a b : Option Scope} (scope : Option.Rel (Scope.Alike m) a b) : Alike m (.live a) (.live b)
  | frozen (vars : Vars) : Alike m (.frozen vars) (.frozen vars)

inductive Frame.Alike (m : Matching) : Frame → Frame → Prop
  | intro (frame : Frame) {binding : Option Binding} {locals : FrameLocals}
      (bindings : Option.Rel (Binding.Alike m) frame.binding binding)
      (scopes : frame.locals.Alike m locals) : Alike m frame { frame with binding, locals }

inductive Context.Alike (m : Matching) : Context → Context → Prop
  | intro (context : Context) (number : Nat) {stack : CallStack}
      (frames : List.Forall₂ (Frame.Alike m) context.stack stack) :
      Alike m context { context with number, stack }

inductive Activation.Alike (m : Matching) : Activation → Activation → Prop
  | intro (activation : Activation) {scope : Scope} (scopes : activation.scope.Alike m scope) :
      Alike m activation { activation with scope }

structure Activations.Alike (m : Matching) (a b : Activations) : Prop where
  root : a.root.Alike m b.root
  inner : List.Forall₂ (Activation.Alike m) a.inner b.inner

inductive EventKind.Alike : EventKind → EventKind → Prop
  | same (kind : EventKind) (other : ∀ exception, kind ≠ .raise exception) : Alike kind kind
  | raise (className : String) (number number' : Nat) :
      Alike (.raise (.exception className number)) (.raise (.exception className number'))

inductive Event.Alike (m : Matching) : Event → Event → Prop
  | intro (event : Event) {kind : EventKind} {scope : Option Scope} (kinds : event.kind.Alike kind)
      (scopes : Option.Rel (Scope.Alike m) event.scope scope) : Alike m event { event with kind, scope }

structure Scopes.Alike (m : Matching) (a b : Scopes) : Prop where
  read : ∀ {c c'}, m c c' → b.read c' = a.read c
  known : ∀ {c c'}, m c c' → c < a.cells.size ∧ c' < b.cells.size
  unique : ∀ {c c' e e'}, m c c' → m e e' → (c = e ↔ c' = e')

/-! ## Further matched cells -/

theorem rel_imp {α β : Type} {r r' : α → β → Prop} (imp : ∀ {a b}, r a b → r' a b) {x : Option α}
    {y : Option β} (h : Option.Rel r x y) : Option.Rel r' x y := by
  cases h with
  | none => exact .none
  | some related => exact .some (imp related)

section Mono

variable {m m' : Matching} (le : ∀ {c c'}, m c c' → m' c c')
include le

theorem Scope.Alike.mono {a b : Scope} (h : a.Alike m b) : a.Alike m' b :=
  ⟨le h.method, rel_imp le h.block⟩

theorem Binding.Alike.mono {a b : Binding} (h : a.Alike m b) : a.Alike m' b := by
  cases h with
  | intro receiver vars =>
      cases vars with
      | live scope => exact .intro receiver (.live (scope.mono le))
      | copied vars => exact .intro receiver (.copied vars)

theorem FrameLocals.Alike.mono {a b : FrameLocals} (h : a.Alike m b) : a.Alike m' b := by
  cases h with
  | live scope => exact .live (rel_imp (fun scopes => scopes.mono le) scope)
  | frozen vars => exact .frozen vars

theorem Frame.Alike.mono {a b : Frame} (h : a.Alike m b) : a.Alike m' b := by
  cases h with
  | intro bindings scopes =>
      exact .intro a (rel_imp (fun alike => alike.mono le) bindings) (scopes.mono le)

theorem Context.Alike.mono {a b : Context} (h : a.Alike m b) : a.Alike m' b := by
  cases h with
  | intro number frames => exact .intro a number (frames.imp fun _ _ alike => alike.mono le)

theorem Activation.Alike.mono {a b : Activation} (h : a.Alike m b) : a.Alike m' b := by
  cases h with
  | intro scopes => exact .intro a (scopes.mono le)

theorem Activations.Alike.mono {a b : Activations} (h : a.Alike m b) : a.Alike m' b :=
  ⟨h.root.mono le, h.inner.imp fun _ _ alike => alike.mono le⟩

end Mono

theorem Matching.le_extend (m : Matching) (cell cell' : Nat) {c c' : Nat} (h : m c c') :
    m.extend cell cell' c c' := .inl h

/-! ## Variables -/

namespace Scopes

variable {m : Matching} {a b : Scopes} {s s' : Scope}

theorem Alike.methodVars_eq (h : a.Alike m b) (scope : s.Alike m s') :
    b.methodVars s' = a.methodVars s := h.read scope.method

theorem Alike.blockVars_eq (h : a.Alike m b) (scope : s.Alike m s') :
    b.blockVars s' = a.blockVars s := by
  have block := scope.block
  unfold blockVars
  cases block' : s.blockCell with
  | none =>
      rw [block'] at block
      cases hs : s'.blockCell with
      | none => rfl
      | some cell =>
          rw [hs] at block
          cases block
  | some cell =>
      rw [block'] at block
      cases hs : s'.blockCell with
      | none =>
          rw [hs] at block
          cases block
      | some cell' =>
          rw [hs] at block
          cases block with
          | some matched => exact h.read matched

theorem Alike.copyVisible_eq (h : a.Alike m b) (scope : s.Alike m s') :
    b.copyVisible s' = a.copyVisible s := by
  unfold copyVisible
  rw [h.methodVars_eq scope, h.blockVars_eq scope]

theorem Alike.lookup?_eq (h : a.Alike m b) (scope : s.Alike m s') (name : String) :
    b.lookup? s' name = a.lookup? s name := by
  unfold lookup?
  rw [h.methodVars_eq scope, h.blockVars_eq scope]

theorem Alike.assignedCell (h : a.Alike m b) (scope : s.Alike m s') (name : String) :
    m (a.assignedCell s name) (b.assignedCell s' name) := by
  obtain ⟨methodCell, blockCell⟩ := s
  obtain ⟨methodCell', blockCell'⟩ := s'
  have block : Option.Rel m blockCell blockCell' := scope.block
  unfold Scopes.assignedCell
  rw [h.methodVars_eq scope]
  cases block with
  | none => exact scope.method
  | @some cell cell' matched =>
      change m (if _ then methodCell else cell) (if _ then methodCell' else cell')
      split
      · exact scope.method
      · exact matched

theorem Alike.assign (h : a.Alike m b) (scope : s.Alike m s') (name : String) (value : Value) :
    (a.assign s name value).Alike m (b.assign s' name value) := by
  have cell := h.assignedCell scope name
  obtain ⟨known, known'⟩ := h.known cell
  refine ⟨fun {c c'} matched => ?_, fun {c c'} matched => ?_, h.unique⟩
  · unfold Scopes.assign
    rw [read_write _ _ _ _ _ known, read_write _ _ _ _ _ known', h.read matched, h.read cell]
    simp only [h.unique matched cell]
  · rw [size_assign, size_assign]
    exact h.known matched

theorem Alike.extend (h : a.Alike m b) :
    (⟨a.cells.push []⟩ : Scopes).Alike (m.extend a.cells.size b.cells.size) ⟨b.cells.push []⟩ := by
  refine ⟨fun {c c'} matched => ?_, fun {c c'} matched => ?_, fun {c c' e e'} matched matched' => ?_⟩
  · rcases matched with old | ⟨rfl, rfl⟩
    · rw [read_push, read_push, h.read old]
    · rw [read_push, read_push, read_size, read_size]
  · simp only [Array.size_push]
    rcases matched with old | ⟨rfl, rfl⟩
    · obtain ⟨known, known'⟩ := h.known old
      exact ⟨Nat.lt_succ_of_lt known, Nat.lt_succ_of_lt known'⟩
    · exact ⟨Nat.lt_succ_self _, Nat.lt_succ_self _⟩
  · rcases matched with old | ⟨rfl, rfl⟩
    · obtain ⟨known, known'⟩ := h.known old
      rcases matched' with old' | ⟨rfl, rfl⟩
      · exact h.unique old old'
      · omega
    · rcases matched' with old' | ⟨rfl, rfl⟩
      · obtain ⟨known, known'⟩ := h.known old'
        omega
      · simp only

end Scopes

theorem Scope.Alike.entered (m : Matching) (cell cell' : Nat) :
    (⟨cell, none⟩ : Scope).Alike (m.extend cell cell') ⟨cell', none⟩ :=
  ⟨.inr ⟨rfl, rfl⟩, .none⟩

theorem Scope.Alike.enteredBlock {m : Matching} {a b : Scope} (h : a.Alike m b) (cell cell' : Nat) :
    (⟨a.methodCell, some cell⟩ : Scope).Alike (m.extend cell cell') ⟨b.methodCell, some cell'⟩ :=
  ⟨.inl h.method, .some (.inr ⟨rfl, rfl⟩)⟩

theorem Binding.Alike.lookup?_eq {m : Matching} {a b : Binding} {s s' : Scopes} (h : a.Alike m b)
    (scopes : s.Alike m s') (name : String) : b.lookup? s' name = a.lookup? s name := by
  cases h with
  | intro receiver vars =>
      cases vars with
      | live scope => exact scopes.lookup?_eq scope name
      | copied vars => rfl

theorem Frame.Alike.visibleLocals_eq {m : Matching} {a b : Frame} {s s' : Scopes} (h : a.Alike m b)
    (scopes : s.Alike m s') : b.visibleLocals s' = a.visibleLocals s := by
  cases h with
  | intro bindings alike =>
      unfold visibleLocals
      generalize a.locals = before at alike
      cases alike with
      | live scope =>
          cases scope with
          | none => rfl
          | some scope => exact scopes.copyVisible_eq scope
      | frozen vars => rfl

/-! ## Frames -/

namespace CallStack

variable {m : Matching} {a b : CallStack}

theorem alike_modifyTop (h : List.Forall₂ (Frame.Alike m) a b) {f g : Frame → Frame}
    (change : ∀ {x y : Frame}, x.Alike m y → (f x).Alike m (g y)) :
    List.Forall₂ (Frame.Alike m) (a.modifyTop f) (b.modifyTop g) := by
  cases h with
  | nil => exact .nil
  | cons top rest => exact .cons (change top) rest

theorem alike_popMatching (h : List.Forall₂ (Frame.Alike m) a b) (method : Option String) :
    List.Forall₂ (Frame.Alike m) (a.popMatching method) (b.popMatching method) := by
  induction h with
  | nil => exact .nil
  | @cons x y a b top rest ih =>
      have same : y.openedFor = x.openedFor := by cases top; rfl
      unfold popMatching at ih ⊢
      rw [List.dropWhile_cons, List.dropWhile_cons, same]
      split
      · exact ih
      · exact rest

end CallStack

/-! ## Contexts -/

namespace Context.Alike

variable {m : Matching} {a b : Context}

theorem frames (h : a.Alike m b) : List.Forall₂ (Frame.Alike m) a.stack b.stack := by
  cases h with
  | intro number frames => exact frames

theorem depth_eq (h : a.Alike m b) : b.depth = a.depth := h.frames.length_eq.symm

theorem isEmpty_eq (h : a.Alike m b) : b.stack.isEmpty = a.stack.isEmpty := by
  have frames := h.frames
  generalize a.stack = stack at frames
  generalize b.stack = stack' at frames
  cases frames <;> rfl

theorem topBinding (h : a.Alike m b) : Option.Rel (Binding.Alike m)
    (a.stack.head?.bind (·.binding)) (b.stack.head?.bind (·.binding)) := by
  have frames := h.frames
  generalize a.stack = stack at frames
  generalize b.stack = stack' at frames
  cases frames with
  | nil => exact .none
  | cons top rest =>
      cases top with
      | intro bindings => exact bindings

theorem tracing_eq (h : a.Alike m b) : b.tracing = a.tracing := by
  cases h
  rfl

theorem ignored_eq (h : a.Alike m b) : b.ignored = a.ignored := by
  cases h
  rfl

theorem modifyTop (h : a.Alike m b) {f g : Frame → Frame}
    (change : ∀ {x y : Frame}, x.Alike m y → (f x).Alike m (g y)) :
    ({ a with stack := a.stack.modifyTop f } : Context).Alike m { b with stack := b.stack.modifyTop g } := by
  cases h with
  | intro number frames =>
      exact .intro { a with stack := a.stack.modifyTop f } number (CallStack.alike_modifyTop frames change)

theorem moveTop (h : a.Alike m b) {e e' : Event} (events : e.Alike m e') (position : Position)
    (native : Bool) : (a.moveTop e position native).Alike m (b.moveTop e' position native) := by
  refine h.modifyTop fun {x y} frame => ?_
  cases events with
  | @intro _ scope kinds scopes =>
      cases frame with
      | intro bindings locals =>
          refine .intro { x with receiver := e.receiver, position, method := e.method, locals := _ }
            bindings ?_
          have same : scope.isSome = e.scope.isSome := by
            generalize e.scope = before at scopes
            cases scopes <;> rfl
          simp only [same]
          split
          · exact .live scopes
          · exact locals

theorem push (h : a.Alike m b) {x y : Frame} (frame : x.Alike m y) :
    (a.push x).Alike m (b.push y) := by
  cases h with
  | intro number frames => exact .intro (a.push x) number (.cons frame frames)

theorem setTopBinding (h : a.Alike m b) {binding binding' : Option Binding}
    (bindings : Option.Rel (Binding.Alike m) binding binding') :
    (a.setTopBinding binding).Alike m (b.setTopBinding binding') := by
  refine h.modifyTop fun {x y} frame => ?_
  cases frame with
  | intro _ locals => exact .intro { x with binding } bindings locals

theorem map (h : a.Alike m b) {f : Context → Context}
    (blind : ∀ (context : Context) number stack,
      f { context with number, stack } = { f context with number, stack })
    (keeps : ∀ context : Context, (f context).stack = context.stack) : (f a).Alike m (f b) := by
  cases h with
  | @intro number stack frames =>
      rw [blind a number stack]
      refine .intro (f a) number ?_
      rw [keeps]
      exact frames

theorem noteEvent (h : a.Alike m b) (position : Option Position) (isLine : Bool) :
    (a.noteEvent position isLine).Alike m (b.noteEvent position isLine) :=
  h.map (f := (·.noteEvent position isLine)) (fun _ _ _ => rfl) fun _ => rfl

theorem clearSteps (h : a.Alike m b) : a.clearSteps.Alike m b.clearSteps :=
  h.map (f := Context.clearSteps) (fun _ _ _ => rfl) fun _ => rfl

theorem countLine (h : a.Alike m b) (moved : Bool) : (a.countLine moved).Alike m (b.countLine moved) := by
  have ticked : (a.tickSteps moved).Alike m (b.tickSteps moved) :=
    h.map (f := (·.tickSteps moved)) (fun _ _ _ => rfl) fun _ => rfl
  have due : ({ a with stopNext := .armed 0 } : Context).Alike m { b with stopNext := .armed 0 } :=
    h.map (f := fun context => { context with stopNext := .armed 0 }) (fun _ _ _ => rfl) fun _ => rfl
  have target : b.targetDepth = a.targetDepth := by cases h; rfl
  rw [target] at due
  unfold Context.countLine
  rw [target, h.depth_eq]
  split
  · exact ticked
  · split
    · exact due
    · split
      · exact h
      · exact ticked

theorem savePosition (h : a.Alike m b) : a.savePosition.Alike m b.savePosition := by
  have saved (position : Position) := h.map
    (f := fun context => { context with
      lastPosition := some position, moved := false, stepped := false, forced := false })
    (fun _ _ _ => rfl) fun _ => rfl
  have frames := h.frames
  unfold Context.savePosition
  split
  · next empty =>
      rw [empty] at frames
      rw [List.forall₂_nil_left_iff.mp frames]
      exact h
  · next top _ own =>
      split
      · next empty =>
          rw [own, empty] at frames
          cases frames
      · next top' _ own' =>
          rw [own, own'] at frames
          cases frames with
          | cons frame =>
              cases frame
              exact saved _

theorem returnFrom (h : a.Alike m b) (method : Option String) :
    (a.returnFrom method).Alike m (b.returnFrom method) := by
  have depth := h.depth_eq
  cases h with
  | intro number frames =>
      have popped := CallStack.alike_popMatching frames method
      unfold Context.returnFrom
      simp only [depth]
      split
      · exact .intro { a with stopNext := .armed 1, finishDepth := none, stack := _ } number popped
      · exact .intro { a with stack := _ } number popped

theorem isStepDue_eq (h : a.Alike m b) : b.isStepDue = a.isStepDue := by
  cases h
  rfl

theorem isOwn_eq (h : a.Alike m b) (found : Debugger.Found) : found.isOwn b = found.isOwn a := by
  cases h
  cases found <;> rfl

end Context.Alike

end EventDebugger
