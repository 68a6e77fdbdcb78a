import EventDebugger.Proofs.Attribution.Runs

/-!
# What the dump says of the cause of a halt

The breakpoint that a halt names is one of the configuration that stands where the thread halted and whose guard
admits it, and the exception that a halt names descends from the catch-point. Halts for other reasons name neither,
and a post-mortem is the end of the dump.

* `Recording.halts_attributed`: the properties of a written halt.
-/

namespace EventDebugger

open Kdl (Node)

namespace Recording

/-! ## Halts -/

/-- The breakpoint at an index of the configuration, counted from zero, stands on the event that is recorded at a
position, and its guard admits it. -/
def Breaks (config : Config) (program : Program) (index : Nat) (position : Position) (i : Nat) : Prop :=
  ∃ listed event scopes scope, config.breakpoints[i]? = some listed ∧ Occasion config program index event scopes ∧
    event.position = some position ∧ listed.StandsOn event ∧
    event.scope = some scope ∧ listed.Admits scopes scope

/-- The event that is recorded raises an exception of a class, which descends from the catch-point. -/
def Catches (config : Config) (program : Program) (index : Nat) (className : String) : Prop :=
  ∃ number caught event scopes, Occasion config program index event scopes ∧
    event.kind = .raise (.exception className number) ∧ config.catchpoint = some caught ∧
    caught ∈ (Host.initial.declare program).ancestors (.exception className number)

structure Attributed (config : Config) (program : Program) (index : Nat) (halt : HaltRecord) : Prop where
  names : halt.breakpoint.isSome ↔ halt.reason = .breakpoint
  breaks : ∀ k ∈ halt.breakpoint, ∃ i, k = i + 1 ∧ Breaks config program index halt.position i
  raises : halt.exception.isSome ↔ halt.reason = .catchpoint
  catches : ∀ className ∈ halt.exception, Catches config program index className

variable {config : Config} {program : Program} {index : Nat} {halt : HaltRecord}

theorem Occasion.explicit {event : Event} {scopes : Scopes} (occasion : Occasion config program index event scopes)
    {exception : Value} (kind : event.kind = .raise exception) :
    ∃ className number, exception = .exception className number := by
  cases occasion with
  | intro p n t prepared only notifies before after =>
      cases notifies with
      | intro phase notified => exact (Action.explicit notified).2 kind

theorem attributed_of_unnamed (breakpoint : halt.breakpoint = none) (exception : halt.exception = none)
    (unbroken : halt.reason ≠ .breakpoint) (uncaught : halt.reason ≠ .catchpoint) :
    Attributed config program index halt := by
  refine ⟨?_, fun k named => ?_, ?_, fun className named => ?_⟩
  · simp only [breakpoint, Option.isSome_none, Bool.false_eq_true, unbroken]
  · cases breakpoint ▸ named
  · simp only [exception, Option.isSome_none, Bool.false_eq_true, uncaught]
  · cases exception ▸ named

theorem attributed_of_postMortem (dead : halt.OfPostMortem) : Attributed config program index halt :=
  attributed_of_unnamed dead.breakpoint dead.exception (dead.reason ▸ nofun) (dead.reason ▸ nofun)

theorem Explained.attributed (explained : Explained config program index halt) :
    Attributed config program index halt ∧ halt.reason ≠ .postMortem := by
  obtain ⟨event, scopes, occasion, due⟩ := explained
  cases due with
  | step reason breakpoint exception =>
      exact ⟨attributed_of_unnamed breakpoint exception (reason ▸ nofun) (reason ▸ nofun), reason ▸ nofun⟩
  | breakpoint i listed scope reason number exception is position stands inside admits =>
      refine ⟨⟨?_, fun k named => ?_, ?_, fun className named => ?_⟩, ?_⟩
      · simp only [reason, number, Option.isSome_some]
      · cases number ▸ named
        exact ⟨i, rfl, listed, event, scopes, scope, is, occasion, position, stands, inside, admits⟩
      · simp only [reason, exception, Option.isSome_none, Bool.false_eq_true, reduceCtorEq]
      · cases exception ▸ named
      · exact reason ▸ nofun
  | catchpoint exception caught reason breakpoint named kind catches ancestor =>
      obtain ⟨className, number, rfl⟩ := occasion.explicit kind
      refine ⟨⟨?_, fun k is => ?_, ?_, fun other is => ?_⟩, ?_⟩
      · simp only [reason, breakpoint, Option.isSome_none, Bool.false_eq_true, reduceCtorEq]
      · cases breakpoint ▸ is
      · simp only [reason, named, Announcement.ofException, Announcement.exception?, Option.isSome_some]
      · cases named ▸ is
        exact ⟨number, caught, event, scopes, occasion, kind, catches, ancestor⟩
      · exact reason ▸ nofun

end Recording

/-! ## Written halts -/

theorem HaltRecord.properties_toNode (halt : HaltRecord) :
    halt.toNode.arguments = [⟨none, .text halt.position.file⟩, ⟨none, .integer false halt.position.line⟩] ∧
    halt.toNode.property? "reason" = some ⟨none, .text halt.reason.name⟩ ∧
    halt.toNode.property? "breakpoint" = halt.breakpoint.map (fun number => ⟨none, .integer false number⟩) ∧
    halt.toNode.property? "exception" = halt.exception.map (fun className => ⟨none, .text className⟩) := by
  obtain ⟨thread, number, position, reason, depth, method, breakpoint, exception, locals⟩ := halt
  cases method <;> cases breakpoint <;> cases exception <;> exact ⟨rfl, rfl, rfl, rfl⟩

theorem StopReason.name_inj {reason reason' : StopReason} : reason.name = reason'.name ↔ reason = reason' := by
  refine ⟨fun same => ?_, congrArg name⟩
  cases reason <;> cases reason' <;> first | rfl | exact absurd same (by decide)

namespace Recording

variable {config : Config} {program : Program}

theorem accounted_document (single : program.threads.length ≤ 1) {nodes : Kdl.Document}
    (recorded : document config program = .ok nodes) :
    ∃ q, Accounted config program q ∧ nodes = q.recorder.records.toList.map Record.toNode := by
  unfold document at recorded
  rw [records_eq] at recorded
  cases prepared : Replaying.prepared config program with
  | error error =>
      rw [prepared] at recorded
      cases recorded
  | ok p =>
      obtain ⟨k, moves⟩ := Replaying.replayed_run (accounted_prepared single prepared).single
      rw [prepared] at recorded
      dsimp only at recorded
      rw [moves] at recorded
      refine ⟨_, accounted_run single prepared k, ?_⟩
      cases failed : p.replayed.1 with
      | none =>
          rw [failed] at recorded
          exact (Except.ok.inj recorded).symm
      | some error =>
          rw [failed] at recorded
          cases recorded

/-- A halt that is written of a program with a single thread names a breakpoint if and only if it is due to a
breakpoint: the one at this position of the configuration. It names an exception if and only if the catch-point has
caught it. A post-mortem comes last. -/
theorem halts_attributed (single : program.threads.length ≤ 1) {nodes : Kdl.Document}
    (recorded : document config program = .ok nodes) {index : Nat} {node : Node} (written : nodes[index]? = some node)
    (halted : node.name = "halt") :
    ((node.property? "breakpoint").isSome ↔ node.property? "reason" = some ⟨none, .text "breakpoint"⟩) ∧
    (∀ value ∈ node.property? "breakpoint", ∃ i position, value = ⟨none, .integer false (i + 1)⟩ ∧
      node.arguments = [⟨none, .text position.file⟩, ⟨none, .integer false position.line⟩] ∧
      Breaks config program index position i) ∧
    ((node.property? "exception").isSome ↔ node.property? "reason" = some ⟨none, .text "catchpoint"⟩) ∧
    (∀ value ∈ node.property? "exception", ∃ className, value = ⟨none, .text className⟩ ∧
      Catches config program index className) ∧
    (node.property? "reason" = some ⟨none, .text "post-mortem"⟩ → index + 1 = nodes.length) := by
  obtain ⟨q, accounted, rfl⟩ := accounted_document single recorded
  rw [List.getElem?_map] at written
  obtain ⟨record, is, rfl⟩ := Option.map_eq_some_iff.mp written
  cases record with
  | trace record =>
      have halted : "trace" = "halt" := halted
      exact absurd halted (by decide)
  | halt halt =>
      rw [Array.getElem?_toList] at is
      obtain ⟨arguments, reason, breakpoint, exception⟩ := halt.properties_toNode
      have named (other : StopReason) : halt.toNode.property? "reason" = some ⟨none, .text other.name⟩ ↔
          halt.reason = other := by
        rw [reason, Option.some_inj, Kdl.Value.mk.injEq, Kdl.Literal.text.injEq, StopReason.name_inj]
        exact and_iff_right rfl
      have attributed : Attributed config program index halt :=
        (accounted.halts is).elim (·.attributed.1) fun dead => attributed_of_postMortem dead.1
      change ((halt.toNode.property? "breakpoint").isSome ↔ halt.toNode.property? "reason" = _) ∧ _
      refine ⟨?_, fun value is => ?_, ?_, fun value is => ?_, fun last => ?_⟩
      · rw [breakpoint, Option.isSome_map]
        exact attributed.names.trans (named .breakpoint).symm
      · obtain ⟨k, names, rfl⟩ := Option.map_eq_some_iff.mp (breakpoint ▸ is)
        obtain ⟨i, rfl, breaks⟩ := attributed.breaks k names
        exact ⟨i, halt.position, rfl, arguments, breaks⟩
      · change (halt.toNode.property? "exception").isSome ↔ _
        rw [exception, Option.isSome_map]
        exact attributed.raises.trans (named .catchpoint).symm
      · obtain ⟨className, names, rfl⟩ := Option.map_eq_some_iff.mp (exception ▸ is)
        exact ⟨className, rfl, attributed.catches className names⟩
      · have reason := (named .postMortem).mp last
        rw [List.length_map, Array.length_toList]
        exact (accounted.halts is).elim (fun explained => absurd reason explained.attributed.2) (·.2.1)

def vigilant : Config := { watchful with step := some 1, catchpoint := some "Oops" }

theorem halts_vigilant : ∃ nodes, document vigilant failing = .ok nodes ∧
    nodes.map (·.property? "reason") = ["step", "breakpoint", "breakpoint", "catchpoint", "post-mortem"].map
      (fun reason => some ⟨none, .text reason⟩) ∧
    (∃ position, Breaks vigilant failing 2 position 1) ∧ Catches vigilant failing 3 "Oops" := by
  have dump : (document vigilant failing).toOption.map (fun nodes =>
      (nodes.map (·.property? "reason"), nodes[2]?.map fun node => (node.name, node.property? "breakpoint"),
        nodes[3]?.map fun node => (node.name, node.property? "exception"))) =
      some (["step", "breakpoint", "breakpoint", "catchpoint", "post-mortem"].map fun reason =>
          some ⟨none, .text reason⟩,
        some ("halt", some ⟨none, .integer false 2⟩), some ("halt", some ⟨none, .text "Oops"⟩)) := by
    decide +kernel
  cases recorded : document vigilant failing with
  | error error =>
      rw [recorded] at dump
      cases dump
  | ok nodes =>
      rw [recorded] at dump
      obtain ⟨reasons, dump⟩ := Prod.mk.inj (Option.some.inj dump)
      obtain ⟨third, fourth⟩ := Prod.mk.inj dump
      obtain ⟨broken, atBreak, shape⟩ := Option.map_eq_some_iff.mp third
      obtain ⟨breakName, number⟩ := Prod.mk.inj shape
      obtain ⟨caught, atCatch, shape⟩ := Option.map_eq_some_iff.mp fourth
      obtain ⟨catchName, exception⟩ := Prod.mk.inj shape
      have single : failing.threads.length ≤ 1 := Nat.le_refl 1
      obtain ⟨-, breaks, -⟩ := halts_attributed single recorded atBreak breakName
      obtain ⟨-, -, -, catches, -⟩ := halts_attributed single recorded atCatch catchName
      obtain ⟨i, position, same, -, stands⟩ := breaks _ number
      obtain ⟨className, is, ancestor⟩ := catches _ exception
      cases same
      cases is
      exact ⟨nodes, rfl, reasons, ⟨position, stands⟩, ancestor⟩

end Recording

end EventDebugger
