import EventDebugger.Proofs.Dispatch.Outline
import EventDebugger.Proofs.Replay.Nesting
import EventDebugger.Proofs.Replay.System

/-!
# Shadows of activations

The call stack of a context shadows the activations of its thread. Each activation inside the top-level
one has a frame at its position, which is that of its native call for a block. The top-level activation
has a frame once it executed a line, and a native call may have one although it is no activation.

* `Mirrors.positions_eq`: where code of the program runs, the frames are at the activations.
* `mirrors_perform`: an action and what its event makes of the outline keep the frames at the
  activations.
-/

namespace EventDebugger

/-- An outline shadows the activations inside the top-level one, where `lined` tells whether that one
executed a line. -/
inductive Shadows (opens : Option TypeRef → Bool → Bool) (root : Activation) (lined : Bool) :
    List Opener → List Activation → Outline → Prop where
  | root : Shadows opens root lined [] [] (if lined then [(root.position, none)] else [])
  | call {openers : List Opener} {inner : List Activation} {outline : Outline} {method : String}
      (activation : Activation) (named : activation.method = some method)
      (debugged : method ≠ "allocate") (settled : Settled openers)
      (caller : Shadows opens root lined openers inner outline) :
      Shadows opens root lined (.call method :: openers) (activation :: inner)
        ((activation.position, some method) :: outline)
  | body {openers : List Opener} {inner : List Activation} {outline : Outline}
      (activation : Activation) (unnamed : activation.method = none) (settled : Settled openers)
      (around : Shadows opens root lined openers inner outline) :
      Shadows opens root lined (.body :: openers) (activation :: inner)
        ((activation.position, none) :: outline)
  | native {openers : List Opener} {inner : List Activation} {outline : Outline} (method : String)
      (type : Option String) (blockGiven : Bool) (debugged : method ≠ "allocate")
      (settled : Settled openers) (caller : Shadows opens root lined openers inner outline) :
      Shadows opens root lined (.native method type blockGiven :: openers) inner
        (if opens ((type.map TypeRef.mk).or (inner.headD root).type) blockGiven then
          ((inner.headD root).position, some method) :: outline
        else outline)
  | block {openers : List Opener} {inner : List Activation} {outline : Outline} (method : String)
      (type : Option String) (activation : Activation) (debugged : method ≠ "allocate")
      (inDebugged : Host.isAllocator activation.method = false) (settled : Settled openers)
      (caller : Shadows opens root lined openers inner outline) :
      Shadows opens root lined (.block method type :: openers) (activation :: inner)
        ((activation.position, some method) :: outline)
  | left {openers : List Opener} {inner : List Activation} {outline : Outline} (method : String)
      (type : Option String) (position : Position) (debugged : method ≠ "allocate")
      (settled : Settled openers) (caller : Shadows opens root lined openers inner outline) :
      Shadows opens root lined (.left method type :: openers) inner ((position, some method) :: outline)

namespace Shadows

variable {opens : Option TypeRef → Bool → Bool} {root : Activation} {lined : Bool}
  {openers : List Opener} {inner : List Activation} {outline : Outline}

theorem positions_eq (h : Shadows opens root lined openers inner outline) (settled : Settled openers) :
    outline.map (·.1) = inner.map (·.position) ++ if lined then [root.position] else [] := by
  induction h with
  | root => cases lined <;> rfl
  | call activation named debugged below caller ih => exact congrArg (activation.position :: ·) (ih below)
  | body activation unnamed below around ih => exact congrArg (activation.position :: ·) (ih below)
  | native | left => exact settled.elim
  | block method type activation debugged inDebugged below caller ih =>
      exact congrArg (activation.position :: ·) (ih below)

theorem moveTop_eq (h : Shadows opens root lined openers inner outline) (settled : Settled openers) :
    outline.moveTop (inner.headD root).position = outline := by
  cases h with
  | root => cases lined <;> rfl
  | call | body | block => rfl
  | native | left => exact settled.elim

theorem isAllocator_top (h : Shadows opens root lined openers inner outline) (unnamed : root.method = none) :
    Host.isAllocator (inner.headD root).method = false := by
  induction h with
  | root =>
      simp only [List.headD_nil, unnamed]
      rfl
  | call activation named debugged =>
      simp only [List.headD_cons, named, Host.isAllocator]
      exact beq_eq_false_iff_ne.mpr fun same => debugged (Option.some.inj same)
  | body activation unnamed' =>
      simp only [List.headD_cons, unnamed']
      rfl
  | native _ _ _ _ _ _ ih | left _ _ _ _ _ _ ih => exact ih
  | block method type activation debugged inDebugged => exact inDebugged

theorem move (h : Shadows opens root lined openers (activation :: inner) outline)
    (settled : Settled openers) (position : Position) :
    outline ≠ [] ∧ Shadows opens root lined openers ({ activation with position } :: inner)
      (outline.moveTop position) := by
  cases h with
  | call _ named debugged below caller => exact ⟨nofun, .call _ named debugged below caller⟩
  | body _ unnamed below around => exact ⟨nofun, .body _ unnamed below around⟩
  | native | left => exact settled.elim
  | block method type _ debugged inDebugged below caller =>
      exact ⟨nofun, .block method type _ debugged inDebugged below caller⟩

end Shadows

structure Mirrors (opens : Option TypeRef → Bool → Bool) (openers : List Opener)
    (activations : Activations) (lined : Bool) (outline : Outline) : Prop where
  unnamed : activations.root.method = none
  shadows : Shadows opens activations.root lined openers activations.inner outline

theorem Mirrors.positions_eq {opens : Option TypeRef → Bool → Bool} {openers : List Opener}
    {activations : Activations} {lined : Bool} {outline : Outline}
    (h : Mirrors opens openers activations lined outline) (settled : Settled openers) :
    outline.map (·.1) = activations.positions lined := h.shadows.positions_eq settled

structure Announces (opens : Option TypeRef → Bool → Bool) (openers : List Opener)
    (activations : Activations) (lined : Bool) (outline : Outline) (event : Event) : Prop where
  debugged : Host.isAllocator event.method = false
  mirrors : ∃ position, event.position = some position ∧
    Mirrors opens openers activations lined (event.effect opens position outline)
  settled : event.kind.mayCall → Settled openers

section

variable {opens : Option TypeRef → Bool → Bool} {openers : List Opener} {activations : Activations} {lined : Bool}
  {outline : Outline} {method : String}

def MirrorsAfter (opens : Option TypeRef → Bool → Bool) (activations : Activations) (lined : Bool) (outline : Outline)
    (thread : Thread) (host : Host) (action : Action) (openers : List Opener) : Prop :=
  let performed := action.perform thread activations host
  let lined' := lined || action.isTopLine activations
  match performed.event with
  | none => Mirrors opens openers performed.activations lined' outline
  | some event => Announces opens openers performed.activations lined' outline event

theorem isAllocator_of_ne (other : method ≠ "allocate") : Host.isAllocator (some method) = false :=
  beq_eq_false_iff_ne.mpr fun same => other (Option.some.inj same)

theorem mirrors_line (h : Mirrors opens openers activations lined outline) (settled : Settled openers)
    (thread : Thread) (host : Host) (file : String) (number : Nat) (conditional : Bool) :
    MirrorsAfter opens activations lined outline thread host (.line file number conditional) openers := by
  obtain ⟨root, inner, raised⟩ := activations
  obtain ⟨unnamed, shadows⟩ := h
  have debugged := shadows.isAllocator_top unnamed
  simp only [MirrorsAfter, Action.perform]
  cases inner with
  | nil =>
      cases shadows with
      | root =>
          refine ⟨debugged, ⟨⟨file, number⟩, rfl, unnamed, ?_⟩, fun _ => settled⟩
          have moved : Event.effect ((Activations.mk { root with position := ⟨file, number⟩ } []
              raised).event (.line conditional)) opens ⟨file, number⟩
                (if lined then [(root.position, none)] else []) = [(⟨file, number⟩, none)] := by
            cases lined
            · exact congrArg (fun method => [(Position.mk file number, method)]) unnamed
            · rfl
          simp only [Action.isTopLine, List.isEmpty_nil, Bool.or_true]
          exact moved ▸ .root
      | native | left => exact settled.elim
  | cons activation rest =>
      obtain ⟨nonempty, moved⟩ := shadows.move settled ⟨file, number⟩
      refine ⟨debugged, ⟨⟨file, number⟩, rfl, unnamed, ?_⟩, fun _ => settled⟩
      have notEmpty : ¬ outline.isEmpty := fun empty => nonempty (List.isEmpty_iff.mp empty)
      simp only [Action.isTopLine, List.isEmpty_cons, Bool.or_false, Event.effect, Activations.event,
        if_neg notEmpty]
      exact moved

theorem mirrors_nativeCall (h : Mirrors opens openers activations lined outline) (settled : Settled openers)
    (thread : Thread) (host : Host) (other : method ≠ "allocate") (type : Option String) (blockGiven : Bool) :
    MirrorsAfter opens activations lined outline thread host (.nativeCall method type blockGiven)
      (.native method type blockGiven :: openers) := by
  obtain ⟨root, inner, raised⟩ := activations
  obtain ⟨unnamed, shadows⟩ := h
  simp only [MirrorsAfter, Action.perform, Action.isTopLine, Bool.or_false]
  refine ⟨isAllocator_of_ne other, ⟨(inner.headD root).position, rfl, unnamed, ?_⟩, fun calls => by cases calls⟩
  rw [Event.effect_nativeCall rfl opens (shadows.moveTop_eq settled)]
  exact .native _ type blockGiven other settled shadows

theorem mirrors_nativeReturn {type : Option String} {blockGiven : Bool}
    (h : Mirrors opens (.native method type blockGiven :: openers) activations lined outline) (thread : Thread)
    (host : Host) :
    MirrorsAfter opens activations lined outline thread host (.nativeReturn method type blockGiven) openers := by
  obtain ⟨root, inner, raised⟩ := activations
  obtain ⟨unnamed, shadows⟩ := h
  simp only [MirrorsAfter, Action.perform, Action.isTopLine, Bool.or_false]
  cases shadows with
  | native _ _ _ other settled caller =>
      refine ⟨isAllocator_of_ne other, ⟨(inner.headD root).position, rfl, unnamed, ?_⟩, fun calls => by cases calls⟩
      exact (congrArg (Shadows opens root lined openers inner) (Event.effect_nativeReturn rfl opens _ _ _)).mpr caller

theorem mirrors_blockReturn (opensBlock : ∀ type, opens type true) {type : Option String}
    (h : Mirrors opens (.left method type :: openers) activations lined outline) (thread : Thread) (host : Host) :
    MirrorsAfter opens activations lined outline thread host (.nativeReturn method type true) openers := by
  obtain ⟨root, inner, raised⟩ := activations
  obtain ⟨unnamed, shadows⟩ := h
  simp only [MirrorsAfter, Action.perform, Action.isTopLine, Bool.or_false]
  cases shadows with
  | left _ _ position other settled caller =>
      refine ⟨isAllocator_of_ne other, ⟨(inner.headD root).position, rfl, unnamed, ?_⟩, fun calls => by cases calls⟩
      have returns : ((Activations.mk root inner raised).nativeEvent
          (.nativeReturn true) method type).kind = .nativeReturn true := rfl
      have closed := Event.effect_nativeReturn returns opens (inner.headD root).position position
      simp only [if_pos (opensBlock _)] at closed
      exact (congrArg (Shadows opens root lined openers inner) (closed _)).mpr caller

theorem mirrors_perform (opensBlock : ∀ type, opens type true) {action : Action} {openers' : List Opener}
    (nests : action.Nests openers openers') (h : Mirrors opens openers activations lined outline) (thread : Thread)
    (host : Host) : MirrorsAfter opens activations lined outline thread host action openers' := by
  have debugged := h.shadows.isAllocator_top h.unnamed
  cases nests with
  | line file number conditional settled => exact mirrors_line h settled thread host file number conditional
  | nativeCall type blockGiven settled other => exact mirrors_nativeCall h settled thread host other type blockGiven
  | nativeReturn method type blockGiven => exact mirrors_nativeReturn h thread host
  | blockReturn method type => exact mirrors_blockReturn opensBlock h thread host
  | call type file number settled other =>
      simp only [MirrorsAfter, Action.perform, Action.isTopLine, Bool.or_false]
      exact ⟨isAllocator_of_ne other, ⟨_, rfl, h.unnamed, .call _ rfl other settled h.shadows⟩, fun _ => trivial⟩
  | openClass name number settled =>
      simp only [MirrorsAfter, Action.perform, Action.isTopLine, Bool.or_false]
      exact ⟨rfl, ⟨_, rfl, h.unnamed, .body _ rfl settled h.shadows⟩, fun _ => trivial⟩
  | callReturn method =>
      obtain ⟨root, inner, raised⟩ := activations
      obtain ⟨unnamed, shadows⟩ := h
      simp only [MirrorsAfter, Action.perform, Action.isTopLine, Bool.or_false]
      cases shadows with
      | call activation named other settled caller =>
          refine ⟨debugged, ⟨activation.position, rfl, unnamed, ?_⟩, fun calls => by cases calls⟩
          rw [Event.effect_close (.inl rfl) opens _ _ _ named]
          exact caller
  | closeClass =>
      obtain ⟨root, inner, raised⟩ := activations
      obtain ⟨unnamed, shadows⟩ := h
      simp only [MirrorsAfter, Action.perform, Action.isTopLine, Bool.or_false]
      cases shadows with
      | body activation unnamed' settled around =>
          refine ⟨debugged, ⟨activation.position, rfl, unnamed, ?_⟩, fun calls => by cases calls⟩
          rw [Event.effect_close (.inr rfl) opens _ _ _ unnamed']
          exact around
  | enterBlock method type =>
      obtain ⟨root, inner, raised⟩ := activations
      obtain ⟨unnamed, shadows⟩ := h
      simp only [MirrorsAfter, Action.perform, Action.isTopLine, Bool.or_false]
      cases shadows with
      | native _ _ _ other settled caller =>
          refine ⟨unnamed, ?_⟩
          rw [if_pos (opensBlock _)]
          exact .block method type { inner.headD root with scope := _ } other debugged settled caller
  | leaveBlock method type =>
      obtain ⟨root, inner, raised⟩ := activations
      obtain ⟨unnamed, shadows⟩ := h
      simp only [MirrorsAfter, Action.perform, Action.isTopLine, Bool.or_false]
      cases shadows with
      | block _ _ activation other inDebugged settled caller =>
          exact ⟨unnamed, .left method type activation.position other settled caller⟩
  | assign | fallAsleep | wakeUp | rescue =>
      simp only [MirrorsAfter, Action.perform, Action.isTopLine, Bool.or_false]
      exact ⟨h.unnamed, h.shadows⟩
  | raise className settled =>
      simp only [MirrorsAfter, Action.perform, Action.isTopLine, Bool.or_false]
      refine ⟨debugged, ⟨activations.top.position, rfl, h.unnamed, ?_⟩, fun _ => settled⟩
      have moved := h.shadows.moveTop_eq settled
      simp only [Event.effect, Activations.event, Activations.top]
      rw [moved]
      exact h.shadows

end

end EventDebugger
