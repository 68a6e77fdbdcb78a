import EventDebugger.Proofs.Ticket.Passing

/-!
# Nested events restore the frames

Returns do not close the innermost frame, but all frames up to one that was opened for their method, and
only some native calls open frames. Events that are nested like brackets close what they opened all the
same, whatever the methods are called: no event changes the method that a frame was opened for.

* `Event.Balanced.seated`: what nested events make of frames.
* `World.frames_of_balanced`: nested events in a run, and those of a part of it.
-/

namespace EventDebugger

open CallStack (Becomes)

def CallStack.Seated (method : Option String) (rest stack : CallStack) : Prop :=
  ∃ frame, stack = frame :: rest ∧ frame.openedFor = method

namespace CallStack.Seated

variable {method : Option String} {rest stack stack' : CallStack}

theorem modifyTop (h : Seated method rest stack) (f : Frame → Frame)
    (hf : ∀ frame, (f frame).openedFor = frame.openedFor) : Seated method rest (stack.modifyTop f) := by
  obtain ⟨frame, rfl, opened⟩ := h
  exact ⟨f frame, rfl, (hf frame).trans opened⟩

theorem rebound (h : Seated method rest stack) (same : stack'.unbound = stack.unbound) :
    Seated method rest stack' := by
  obtain ⟨frame, rfl, rfl⟩ := h
  cases stack' with
  | nil => cases same
  | cons frame' rest' =>
      obtain ⟨top, rfl⟩ := List.cons.inj same
      exact ⟨frame', rfl, congrArg (·.openedFor) top⟩

theorem popMatching (h : Seated method rest stack) : stack.popMatching method = rest := by
  obtain ⟨frame, rfl, rfl⟩ := h
  exact popMatching_cons_self frame rest

theorem tail (h : Seated method rest stack) : stack.tail = rest := by
  obtain ⟨frame, rfl, _⟩ := h
  rfl

theorem above (h : Seated method rest stack) : stack ≠ [] ∧ rest <:+ stack.tail := by
  obtain ⟨frame, rfl, _⟩ := h
  exact ⟨List.cons_ne_nil frame rest, List.suffix_rfl⟩

end CallStack.Seated

open CallStack (Seated)

namespace Event

/-- A line, or the raise of an exception that does not end the program. -/
def isInner (event : Event) : Bool :=
  match event.kind with
  | .line _ => true
  | .raise exception => !Host.isExit exception
  | _ => false

/-- Whether an event is dispatched at all: those of the method that allocates objects are not. -/
def isHeard (event : Event) : Bool := !Host.isAllocator event.method

/-- An event that closes what another one opened. -/
inductive Closes : Event → Event → Prop
  | call {opening closing : Event} (opens : opening.kind = .call) (closes : closing.kind = .return)
      (same : closing.method = opening.method) : Closes opening closing
  | body {opening closing : Event} (opens : opening.kind = .classOpen) (closes : closing.kind = .classClose)
      (same : closing.method = opening.method) (placed : closing.position.isSome) : Closes opening closing
  | native {opening closing : Event} {blockGiven : Bool} (opens : opening.kind = .nativeCall blockGiven)
      (closes : closing.kind = .nativeReturn blockGiven) (same : closing.method = opening.method)
      (type : closing.enclosingType = opening.enclosingType) (placed : closing.position.isSome) :
      Closes opening closing

/-- Events that are nested like brackets. -/
inductive Balanced : List Event → Prop
  | nil : Balanced []
  | inner {event : Event} (is : event.isInner) (placed : event.position.isSome) : Balanced [event]
  | append {events events' : List Event} (first : Balanced events) (second : Balanced events') :
      Balanced (events ++ events')
  | block {opening closing : Event} {events : List Event} (closes : Closes opening closing)
      (placed : opening.position.isSome) (body : Balanced events) : Balanced (opening :: (events ++ [closing]))

theorem Closes.method {opening closing : Event} (h : Closes opening closing) :
    closing.method = opening.method := by
  cases h with
  | call opens closes same => exact same
  | body opens closes same placed => exact same
  | native opens closes same type placed => exact same

theorem Balanced.heard {events : List Event} (h : Balanced events) : Balanced (events.filter isHeard) := by
  induction h with
  | nil => exact .nil
  | inner is placed =>
      simp only [List.filter_cons, List.filter_nil]
      split
      · exact .inner is placed
      · exact .nil
  | append first second ih ih' =>
      rw [List.filter_append]
      exact .append ih ih'
  | @block opening closing events closes placed body ih =>
      have same : closing.isHeard = opening.isHeard := by rw [isHeard, closes.method, isHeard]
      cases heard : opening.isHeard with
      | false => simpa [List.filter_cons, List.filter_append, same, heard] using ih
      | true => simpa [List.filter_cons, List.filter_append, same, heard] using Balanced.block closes placed ih

/-! ## One event -/

variable {opens : Option TypeRef → Bool → Bool} {method : Option String} {rest stack stack' : CallStack}

theorem seated_inner {event : Event} (is : event.isInner) (seated : Seated method rest stack) :
    Seated method rest (event.reshape opens stack) := by
  unfold reshape
  cases event.position with
  | none =>
      have other : event.kind ≠ .return := by
        intro kind
        rw [isInner, kind] at is
        cases is
      exact (if_neg other).symm ▸ seated
  | some position =>
      have moved := seated.modifyTop (event.moved position false) fun _ => rfl
      cases kind : event.kind with
      | line conditional =>
          obtain ⟨frame, rfl, _⟩ := seated
          simpa only [reshapeAt, kind, List.isEmpty_cons, Bool.false_eq_true, if_false] using moved
      | raise exception => simpa only [reshapeAt, kind] using moved
      | _ => simp only [isInner, kind, Bool.false_eq_true] at is

variable (opens) in
theorem Closes.opening {opening closing : Event} (h : Closes opening closing) (placed : opening.position.isSome)
    (seated : Seated method rest stack) :
    (∃ below, Seated method rest below ∧ Seated opening.method below (opening.reshape opens stack) ∧
        ∀ {stack}, Seated opening.method below stack → closing.reshape opens stack = below) ∨
      (Seated method rest (opening.reshape opens stack) ∧ ∀ stack, closing.reshape opens stack = stack) := by
  obtain ⟨position, at'⟩ := Option.isSome_iff_exists.mp placed
  have opened (below : CallStack) : Seated opening.method below (opening.opened position :: below) :=
    ⟨_, rfl, rfl⟩
  cases h with
  | call kind kind' same =>
      refine .inl ⟨stack, seated, ?_, fun {stack'} seated' => ?_⟩
      · simpa only [reshape, at', reshapeAt, kind] using opened stack
      · have popped : stack'.popMatching closing.method = stack := same.symm ▸ seated'.popMatching
        cases place : closing.position <;> simp only [reshape, place, reshapeAt, kind', if_true, popped]
  | body kind kind' same placed' =>
      obtain ⟨position', place⟩ := Option.isSome_iff_exists.mp placed'
      refine .inl ⟨_, seated.modifyTop (fun frame => { frame with method := none }) fun _ => rfl, ?_,
        fun {stack'} seated' => ?_⟩
      · simpa only [reshape, at', reshapeAt, kind] using opened _
      · simpa only [reshape, place, reshapeAt, kind', same] using seated'.popMatching
  | native kind kind' same type placed' =>
      rename_i blockGiven
      obtain ⟨position', place⟩ := Option.isSome_iff_exists.mp placed'
      cases framed : opens opening.enclosingType blockGiven with
      | true =>
          refine .inl ⟨stack, seated, ?_, fun {stack'} seated' => ?_⟩
          · simpa only [reshape, at', reshapeAt, kind, framed, if_true] using opened stack
          · simpa only [reshape, place, reshapeAt, kind', type, framed, if_true, same] using seated'.popMatching
      | false =>
          refine .inr ⟨?_, fun stack' => ?_⟩
          · simpa only [reshape, at', reshapeAt, kind, framed, Bool.false_eq_true, if_false] using
              seated.modifyTop (opening.moved position true) fun _ => rfl
          · simp only [reshape, place, reshapeAt, kind', type, framed, Bool.false_eq_true, if_false]

/-! ## Nested events -/

theorem Balanced.seated {events : List Event} (h : Balanced events) (seated : Seated method rest stack)
    (becomes : Becomes opens events stack stack') : Seated method rest stack' := by
  induction h generalizing method rest stack stack' with
  | nil => exact seated.rebound becomes
  | inner is placed =>
      obtain ⟨met, same, same'⟩ := becomes
      exact (seated_inner is (seated.rebound same)).rebound same'
  | append first second ih ih' =>
      obtain ⟨met, becomes, becomes'⟩ := CallStack.Becomes.append_iff.mp becomes
      exact ih' (ih seated becomes) becomes'
  | block closes placed body ih =>
      obtain ⟨met, same, becomes⟩ := becomes
      obtain ⟨last, becomes, ⟨met', same', same''⟩⟩ := CallStack.Becomes.append_iff.mp becomes
      rcases closes.opening opens placed (seated.rebound same) with
        ⟨below, seated, opened, closed⟩ | ⟨seated, closed⟩
      · rw [closed ((ih opened becomes).rebound same')] at same''
        exact seated.rebound same''
      · rw [closed] at same''
        exact ((ih seated becomes).rebound same').rebound same''

theorem Balanced.above {events before after : List Event} (h : Balanced events) (split : before ++ after = events)
    (seated : Seated method rest stack) (becomes : Becomes opens before stack stack') :
    stack' ≠ [] ∧ rest <:+ stack'.tail := by
  induction h generalizing method rest stack stack' before after with
  | nil =>
      obtain ⟨rfl, _⟩ := List.append_eq_nil_iff.mp split
      exact (seated.rebound becomes).above
  | inner is placed =>
      cases before with
      | nil => exact (seated.rebound becomes).above
      | cons event before =>
          obtain ⟨rfl, rest⟩ := List.cons.inj split
          obtain ⟨rfl, _⟩ := List.append_eq_nil_iff.mp rest
          exact ((Balanced.inner is placed).seated seated becomes).above
  | append first second ih ih' =>
      rcases List.append_eq_append_iff.mp split with ⟨_, part, _⟩ | ⟨_, rfl, part⟩
      · exact ih part.symm seated becomes
      · obtain ⟨met, becomes, becomes'⟩ := CallStack.Becomes.append_iff.mp becomes
        exact ih' part.symm (first.seated seated becomes) becomes'
  | @block opening closing events closes placed body ih =>
      -- Within the block, all frames from before are below the one that the block opened, if it opened one.
      have within {inside later : List Event} (part : inside ++ later = events)
          (becomes : Becomes opens (opening :: inside) stack stack') : stack' ≠ [] ∧ rest <:+ stack'.tail := by
        obtain ⟨met, same, becomes⟩ := becomes
        rcases closes.opening opens placed (seated.rebound same) with
          ⟨below, ⟨frame, rfl, _⟩, opened, _⟩ | ⟨seated, _⟩
        · obtain ⟨framed, suffix⟩ := ih part opened becomes
          exact ⟨framed, (List.suffix_cons frame rest).trans suffix⟩
        · exact ih part seated becomes
      cases before with
      | nil => exact (seated.rebound becomes).above
      | cons event before =>
          obtain ⟨rfl, inside⟩ := List.cons.inj split
          rcases List.append_eq_append_iff.mp inside with ⟨_, part, _⟩ | ⟨last, rfl, part⟩
          · exact within part.symm becomes
          · cases last with
            | nil => exact within (List.append_nil events) (List.append_nil events ▸ becomes)
            | cons closing' last =>
                obtain ⟨rfl, done⟩ := List.cons.inj part
                obtain ⟨rfl, _⟩ := List.append_eq_nil_iff.mp done.symm
                exact ((Balanced.block closes placed body).seated seated becomes).above

end Event

namespace World

variable {w w₀ : World} {id : ContextId} {allowed : World → Nat → Move → Prop}

/-- Nested events leave as many frames as there were, and all below the innermost one as they were. At no point
are there fewer. -/
theorem frames_of_balanced (known : id < w₀.debugger.contexts.size)
    (heeded : (w₀.debugger.context id).skipped = false) (framed : (w₀.debugger.context id).stack ≠ [])
    {before after : List Event} (balanced : Event.Balanced (before ++ after))
    (passes : Passes allowed id w₀ (before.filter Event.isHeard) w) :
    (w₀.debugger.context id).depth ≤ (w.debugger.context id).depth ∧
      (w₀.debugger.context id).stack.tail <:+ (w.debugger.context id).stack.tail ∧
      (after = [] → (w.debugger.context id).depth = (w₀.debugger.context id).depth ∧
        (w.debugger.context id).stack.tail = (w₀.debugger.context id).stack.tail) := by
  have becomes := passes.becomes known heeded
  have split := List.filter_append (p := Event.isHeard) before after
  have heard := balanced.heard
  simp only [Context.depth]
  generalize (w₀.debugger.context id).stack = stack at framed becomes ⊢
  generalize (w.debugger.context id).stack = stack' at becomes ⊢
  cases stack with
  | nil => exact absurd rfl framed
  | cons frame rest =>
      have seated : Seated frame.openedFor rest (frame :: rest) := ⟨frame, rfl, rfl⟩
      obtain ⟨framed', suffix⟩ := heard.above split.symm seated becomes
      have deeper := suffix.length_le
      have size : stack'.length = stack'.tail.length + 1 := by
        cases stack' with
        | nil => exact absurd rfl framed'
        | cons => rfl
      refine ⟨?_, suffix, ?_⟩
      · rw [size]
        exact Nat.succ_le_succ deeper
      · rintro rfl
        rw [List.append_nil] at heard
        have whole := (heard.seated seated becomes).tail
        exact ⟨by rw [size, whole]; rfl, whole⟩

/-! ## A method that calls itself -/

def eventOf (kind : EventKind) (method : Option String) (line : Nat) : Event :=
  { Event.ofKind kind with position := some ⟨"a.rb", line⟩, method }

def making : List Event :=
  [eventOf (.nativeCall false) "new" 3, eventOf .call "allocate" 3, eventOf .return "allocate" 3,
    eventOf (.nativeReturn false) "new" 3]

def recursion : List Event :=
  [eventOf .call "f" 2, eventOf (.line false) "f" 4, { Event.ofKind .return with method := some "f" }]

def opening : List Event :=
  [eventOf .classOpen none 5, eventOf (.raise (.exception "RuntimeError" 1)) none 6, eventOf .classClose none 7]

def nested : List Event :=
  eventOf .call "f" 2 :: ((making ++ (recursion ++ opening)) ++ [eventOf .return "f" 8])

theorem balanced_nested : Event.Balanced nested := by
  have call (line line' : Nat) : Event.Closes (eventOf .call "f" line) (eventOf .return "f" line') :=
    .call rfl rfl rfl
  have bare : Event.Closes (eventOf .call "f" 2) { Event.ofKind .return with method := some "f" } :=
    .call rfl rfl rfl
  have allocate : Event.Closes (eventOf .call "allocate" 3) (eventOf .return "allocate" 3) := .call rfl rfl rfl
  have native : Event.Closes (eventOf (.nativeCall false) "new" 3) (eventOf (.nativeReturn false) "new" 3) :=
    .native rfl rfl rfl rfl rfl
  have body : Event.Closes (eventOf .classOpen none 5) (eventOf .classClose none 7) := .body rfl rfl rfl rfl
  have making : Event.Balanced making := .block native rfl (.block allocate rfl .nil)
  have recursion : Event.Balanced recursion := .block bare rfl (.inner rfl rfl)
  have opening : Event.Balanced opening := .block body rfl (.inner rfl rfl)
  exact .block (call 2 8) rfl (.append making (.append recursion opening))

def stepsOf (events : List Event) : List (Nat × Move) :=
  events.flatMap fun event =>
    (if event.isHeard then Move.ofEvent event else [.arrive event]).map fun move => (0, move)

def onFirstLine : World :=
  unstarted.afterwards (Act.ofMoves ((0, .request (.debugger .start)) :: stepsOf [eventOf (.line false) "main" 1]))

def pastEvents (events : List Event) : World := onFirstLine.afterwards (Act.ofMoves (stepsOf events))

theorem passes_nested (events : List Event)
    (heard : takesAll 0 onFirstLine (stepsOf events) = events.filter Event.isHeard)
    (followed : onFirstLine.follow? Anything (Act.ofMoves (stepsOf events)) = some (pastEvents events)) :
    Passes (fun _ _ _ => True) 0 onFirstLine (events.filter Event.isHeard) (pastEvents events) := by
  rw [← heard]
  exact Passes.follow (stepsOf events) .refl (fun _ _ _ _ => trivial) followed

theorem frames_of_nested :
    Passes (fun _ _ _ => True) 0 onFirstLine ((nested.take 8).filter Event.isHeard) (pastEvents (nested.take 8)) ∧
      Passes (fun _ _ _ => True) 0 onFirstLine (nested.filter Event.isHeard) (pastEvents nested) ∧
      (onFirstLine.debugger.context 0).stack.tail <:+ ((pastEvents (nested.take 8)).debugger.context 0).stack.tail ∧
      ((pastEvents nested).debugger.context 0).depth = (onFirstLine.debugger.context 0).depth ∧
      ((pastEvents nested).debugger.context 0).stack.tail = (onFirstLine.debugger.context 0).stack.tail := by
  have known : 0 < onFirstLine.debugger.contexts.size := by decide
  have framed : (onFirstLine.debugger.context 0).stack ≠ [] := by decide
  have within := passes_nested (nested.take 8) rfl rfl
  have whole := passes_nested nested rfl rfl
  have part : Event.Balanced (nested.take 8 ++ nested.drop 8) := balanced_nested
  have balanced : Event.Balanced (nested ++ []) := by
    rw [List.append_nil]
    exact balanced_nested
  obtain ⟨-, above, -⟩ := frames_of_balanced known rfl framed part within
  obtain ⟨-, -, same⟩ := frames_of_balanced known rfl framed balanced whole
  exact ⟨within, whole, above, same rfl⟩

end World

end EventDebugger
