import EventDebugger.Proofs.Attribution.Dump
import EventDebugger.Proofs.PostMortem.Runs

/-!
# Post-mortems in the dump

A single thread that is not of the debugger enters a post-mortem if and only if it ends with an exception, the exit
exception was not raised, and there was a frame when the exception was raised. The dump shows the place, the depth
and the variables of that time, whatever was notified while the stack unwound.

* `Recording.postMortem_of_uncaught`: the post-mortem in the dump.
-/

namespace EventDebugger

open Kdl (Entry Node)

namespace Recording

/-- The only thread of a program ends with an exception that it raised at a site. -/
inductive Crashes (config : Config) (program : Program) (site : CrashSite) : Prop where
  | intro (p : Replaying) (decl : ThreadDecl) (prepared : Replaying.prepared config program = .ok p)
      (single : program.threads = [decl]) (crashed : p.Crashed (Step.toActionsAll decl.steps).actions site)

/-- A halt with the reason of a post-mortem. -/
def IsPostMortem (node : Node) : Prop :=
  node.name = "halt" ∧ node.property? "reason" = some ⟨none, .text "post-mortem"⟩

/-- A halt at a crash site. -/
structure ShowsSite (node : Node) (site : CrashSite) : Prop where
  position : node.arguments = [⟨none, .text site.position.file⟩, ⟨none, .integer false site.position.line⟩]
  depth : node.property? "depth" = some ⟨none, .integer false site.depth⟩
  locals : node.children = site.locals.map fun slot =>
    .mk none "local" [.textArgument slot.1, .textArgument slot.2.text] []

variable {config : Config} {program : Program} {decl : ThreadDecl} {p : Replaying} {site site' : CrashSite}

theorem Crashes.unique (h : Crashes config program site) (h' : Crashes config program site') : site = site' := by
  cases h with
  | intro p decl prepared single crashed =>
      cases h' with
      | intro p' decl' prepared' single' crashed' =>
          cases prepared.symm.trans prepared'
          cases single.symm.trans single'
          exact crashed.unique crashed'

theorem isPostMortem_toNode {record : Record} :
    IsPostMortem record.toNode ↔ ∃ halt : HaltRecord, record = .halt halt ∧ halt.reason = .postMortem := by
  cases record with
  | trace record =>
      refine ⟨fun h => ?_, fun ⟨halt, is, _⟩ => by cases is⟩
      have halted : "trace" = "halt" := h.1
      exact absurd halted (by decide)
  | halt halt =>
      obtain ⟨-, reason, -, -⟩ := halt.properties_toNode
      have named : IsPostMortem halt.toNode ↔ halt.reason = .postMortem := by
        rw [IsPostMortem, reason, Option.some_inj, Kdl.Value.mk.injEq, Kdl.Literal.text.injEq]
        exact ⟨fun h => StopReason.name_inj.mp h.2.2, fun is => ⟨rfl, rfl, congrArg StopReason.name is⟩⟩
      refine named.trans ⟨fun is => ⟨halt, rfl, is⟩, fun ⟨other, same, is⟩ => ?_⟩
      cases same
      exact is

theorem showsSite_toNode {halt : HaltRecord} (shows : halt.ShowsSite site) : ShowsSite halt.toNode site := by
  obtain ⟨thread, number, position, reason, depth, method, breakpoint, exception, locals⟩ := halt
  obtain ⟨-, rfl, rfl, locals⟩ := shows
  refine ⟨?_, ?_, ?_⟩
  · cases method <;> cases breakpoint <;> cases exception <;> rfl
  · cases method <;> cases breakpoint <;> cases exception <;> rfl
  · dsimp only at locals
    rw [locals]
    exact List.map_map ..

theorem document_run (prepared : Replaying.prepared config program = .ok p) {t : ReplayThread Error}
    (only : p.threads = [t]) (starting : t.phase = .starting)
    (steady : ∀ m, ∀ t ∈ (p.run (List.replicate m 0)).threads, ¬ t.Waits) {last : ReplayThread Error}
    (ended : (p.run (List.replicate t.movesLeft 0)).threads = [last]) (exited : last.HasExited)
    {nodes : Kdl.Document} (recorded : document config program = .ok nodes) :
    nodes = (p.run (List.replicate t.movesLeft 0)).recorder.records.toList.map Record.toNode ∧ last.error? = none := by
  have moves := Replaying.run_eq_advance only steady t.movesLeft
  obtain ⟨result, phase⟩ := exited
  rw [moves] at ended ⊢
  obtain rfl : (t.advance Recorder.frontEnd t.movesLeft (p.debugger, p.recorder)).1 = last :=
    (List.cons.inj ended).1
  have replayed := Replaying.replayed_single only starting rfl phase
  unfold document at recorded
  rw [records_eq, prepared] at recorded
  dsimp only at recorded
  rw [replayed] at recorded
  cases failed : (t.advance Recorder.frontEnd t.movesLeft (p.debugger, p.recorder)).1.error? with
  | none =>
      rw [failed] at recorded
      exact ⟨(Except.ok.inj recorded).symm, rfl⟩
  | some error =>
      rw [failed] at recorded
      cases recorded

theorem not_isPostMortem {q : Replaying} (accounted : Accounted config program q) {t : ReplayThread Error}
    (only : q.threads = [t]) (goes : ¬ t.HasExited) {record : Record} (member : record ∈ q.recorder.records.toList) :
    ¬ IsPostMortem record.toNode := by
  intro dead
  obtain ⟨halt, rfl, reason⟩ := isPostMortem_toNode.mp dead
  obtain ⟨j, inside, is⟩ := List.getElem_of_mem member
  have is : q.recorder.records[j]? = some (.halt halt) := by
    rw [← Array.getElem?_toList, List.getElem?_eq_getElem inside, is]
  rcases accounted.halts is with explained | ⟨-, -, exited⟩
  · exact explained.attributed.2 reason
  · exact goes (exited t (only ▸ List.mem_singleton_self t))

section

variable (on : config.postMortem = true) (single : program.threads = [decl]) (user : decl.isDebugger = false)
  (audible : ∀ action ∈ (Step.toActionsAll decl.steps).actions, action.isHeard) {nodes : Kdl.Document}
  (recorded : document config program = .ok nodes)

include on single user audible recorded

theorem midway_of_document : ∃ p thread, Replaying.prepared config program = .ok p ∧
    nodes = (p.run (List.replicate ((Step.toActionsAll decl.steps).actions.length + 2) 0)).recorder.records.toList.map
      Record.toNode ∧
    ∀ {done rest}, (Step.toActionsAll decl.steps).actions = done ++ rest → ∃ activations,
      p.Midway thread decl.steps done rest activations (p.run (List.replicate (done.length + 1) 0)) := by
  have few : program.threads.length ≤ 1 := by
    rw [single]
    exact Nat.le_refl 1
  obtain ⟨p, prepared⟩ : ∃ p, Replaying.prepared config program = .ok p := by
    unfold document at recorded
    rw [records_eq] at recorded
    cases prepared : Replaying.prepared config program with
    | ok p => exact ⟨p, rfl⟩
    | error error =>
        rw [prepared] at recorded
        cases recorded
  obtain ⟨thread, only, watches, started⟩ := watches_prepared on single user prepared
  have accounted := accounted_run few prepared
  have moves {done rest : List Action} (split : (Step.toActionsAll decl.steps).actions = done ++ rest) :=
    Replaying.midway_run few prepared only watches started audible split
  obtain ⟨last, ended, exited⟩ : ∃ last, (p.run (List.replicate ((Step.toActionsAll decl.steps).actions.length + 2)
      0)).threads = [last] ∧ last.HasExited := by
    rw [Replaying.run_replicate_succ]
    rcases moves (List.append_nil _).symm with ⟨activations, h⟩ | ⟨t, stopped, failed⟩
    · obtain ⟨calm, alone⟩ := h.ready (accounted _)
      exact (h.ended calm alone).1
    · have exited := Replaying.hasExited_of_error failed
      rw [Replaying.move_of_exited (Replaying.exited_of_only stopped exited)]
      exact ⟨t, stopped, exited⟩
  have steady (m : Nat) (t : ReplayThread Error) (member : t ∈ (p.run (List.replicate m 0)).threads) : ¬ t.Waits := by
    rcases (accounted m).ready t member with ⟨result, phase⟩ | ⟨-, -, steady⟩
    · unfold ReplayThread.Waits
      rw [phase]
      exact id
    · exact steady
  obtain ⟨written, succeeded⟩ := document_run prepared only rfl steady ended exited recorded
  refine ⟨p, thread, prepared, written, fun {done rest} split => (moves split).resolve_right ?_⟩
  rintro ⟨t, stopped, failed⟩
  have inside : done.length + 1 ≤ (Step.toActionsAll decl.steps).actions.length + 2 := by
    rw [split, List.length_append]
    omega
  rw [Replaying.run_more (Replaying.exited_of_only stopped (Replaying.hasExited_of_error failed)) inside,
    stopped] at ended
  obtain rfl : t = last := (List.cons.inj ended).1
  rw [succeeded] at failed
  cases failed

theorem crashes_iff_raised :
    (Step.executedAll decl.steps).raised = true ↔ ∃ site, Crashes config program site := by
  refine ⟨fun raised => ?_, fun ⟨site, crashes⟩ => ?_⟩
  · obtain ⟨p, thread, prepared, -, midway⟩ := midway_of_document on single user audible recorded
    obtain ⟨before, className, last⟩ := (Step.raised_iff decl.steps).mp raised
    obtain ⟨after, split, -⟩ := id last
    obtain ⟨activations, h⟩ := midway split
    exact ⟨_, p, decl, prepared, single, before, className, last, .intro h.only rfl⟩
  · cases crashes with
    | intro p decl' prepared single' crashed =>
        cases single.symm.trans single'
        obtain ⟨before, className, last, -⟩ := crashed
        exact (Step.raised_iff decl.steps).mpr ⟨before, className, last⟩

theorem postMortem_cases :
    ((∀ node ∈ nodes, ¬ IsPostMortem node) ∧ ∀ site, Crashes config program site →
        Action.raise "SystemExit" ∉ (Step.toActionsAll decl.steps).actions → site.depth = 0) ∨
      ∃ site, Crashes config program site ∧ Action.raise "SystemExit" ∉ (Step.toActionsAll decl.steps).actions ∧
        0 < site.depth ∧ (∃ node ∈ nodes, IsPostMortem node) ∧
        ∀ node ∈ nodes, IsPostMortem node → ShowsSite node site := by
  obtain ⟨p, thread, prepared, rfl, midway⟩ := midway_of_document on single user audible recorded
  have few : program.threads.length ≤ 1 := by
    rw [single]
    exact Nat.le_refl 1
  obtain ⟨activations, h⟩ := midway (List.append_nil _).symm
  have accounted := accounted_run few prepared ((Step.toActionsAll decl.steps).actions.length + 1)
  obtain ⟨calm, alone⟩ := h.ready accounted
  have alive {record : Record} (member : record ∈ _) := not_isPostMortem accounted h.only (by rintro ⟨_, ⟨⟩⟩) member
  rw [Replaying.run_replicate_succ]
  rcases (h.ended calm alone).2 with ⟨same, bare⟩ | ⟨halt, site, crashed, stays, framed, shows, pushed⟩
  · left
    rw [same]
    refine ⟨fun node member => ?_, fun site crashes => ?_⟩
    · obtain ⟨record, old, rfl⟩ := List.mem_map.mp member
      exact alive old
    · cases crashes with
      | intro p' decl' prepared' single' crashed =>
          cases prepared.symm.trans prepared'
          cases single.symm.trans single'
          exact bare site crashed
  · right
    rw [pushed, Array.toList_push, List.map_append]
    refine ⟨site, ⟨p, decl, prepared, single, crashed⟩, stays, framed, ⟨halt.toNode, ?_, ?_⟩,
      fun node member dead => ?_⟩
    · exact List.mem_append_right _ (List.mem_singleton_self _)
    · exact isPostMortem_toNode.mpr ⟨halt, rfl, shows.reason⟩
    · rcases List.mem_append.mp member with old | new
      · obtain ⟨record, older, rfl⟩ := List.mem_map.mp old
        exact absurd dead (alive older)
      · cases List.mem_singleton.mp new
        exact showsSite_toNode shows

/-- A single thread of the user whose program is recorded enters a post-mortem if and only if it ends with an
exception that nothing caught, the exit exception was not raised, and there was a frame at the raise. The halt
shows the position of the innermost activation, the depth of the stack and the user's variables at the raise. -/
theorem postMortem_of_uncaught :
    ((Step.executedAll decl.steps).raised = true ↔ ∃ site, Crashes config program site) ∧
    ((∃ node ∈ nodes, IsPostMortem node) ↔ (Step.executedAll decl.steps).raised = true ∧
      Action.raise "SystemExit" ∉ (Step.toActionsAll decl.steps).actions ∧
      ∃ site, Crashes config program site ∧ 0 < site.depth) ∧
    ∀ node ∈ nodes, IsPostMortem node → ∀ site, Crashes config program site → ShowsSite node site := by
  have raised := crashes_iff_raised on single user audible recorded
  refine ⟨raised, ?_⟩
  rcases postMortem_cases on single user audible recorded with
    ⟨lively, bare⟩ | ⟨site, crashes, stays, framed, dead, shows⟩
  · refine ⟨⟨fun ⟨node, member, dead⟩ => absurd dead (lively node member), fun ⟨_, stays, site, crashes, framed⟩ => ?_⟩,
      fun node member dead => absurd dead (lively node member)⟩
    exact absurd framed (Nat.not_lt_of_le (Nat.le_of_eq (bare site crashes stays)))
  · refine ⟨⟨fun _ => ⟨raised.mpr ⟨site, crashes⟩, stays, site, crashes, framed⟩, fun _ => dead⟩,
      fun node member dead other crashes' => ?_⟩
    exact crashes.unique crashes' ▸ shows node member dead

end

def doomed : Program where
  types := []
  exceptions := []
  threads := [⟨"main", none,
    [.line "a.rb" 1, .rescue [.raise "Oops"],
      .call "f" none none (some 2) [.assign "x" "1", .line "b.rb" 7,
        .nativeCall "each" none [.assign "y" "2", .line "b.rb" 8, .raise "Oops"]],
      .line "a.rb" 3]⟩]

def remembering : Config := { Config.standard with postMortem := true }

theorem postMortem_doomed : ∃ node site, document remembering doomed = .ok [node] ∧ IsPostMortem node ∧
    Crashes remembering doomed site ∧ site.position = ⟨"b.rb", 8⟩ ∧ site.depth = 3 ∧ ShowsSite node site ∧
    node.children.map (·.arguments) =
      [[⟨none, .text "x"⟩, ⟨none, .text "1"⟩], [⟨none, .text "y"⟩, ⟨none, .text "2"⟩]] := by
  have dump : (document remembering doomed).toOption.map (fun nodes => nodes.map fun node =>
      (node.name, node.property? "reason", node.arguments, node.property? "depth")) =
      some [("halt", some ⟨none, .text "post-mortem"⟩, [⟨none, .text "b.rb"⟩, ⟨none, .integer false 8⟩],
        some ⟨none, .integer false 3⟩)] := by
    decide +kernel
  have inside : (document remembering doomed).toOption.map (fun nodes => nodes.map (·.children.map (·.arguments))) =
      some [[[⟨none, .text "x"⟩, ⟨none, .text "1"⟩], [⟨none, .text "y"⟩, ⟨none, .text "2"⟩]]] := by
    decide +kernel
  cases recorded : document remembering doomed with
  | error error =>
      rw [recorded] at dump
      cases dump
  | ok nodes =>
      rw [recorded] at dump inside
      obtain ⟨node, rfl, shape⟩ := List.map_eq_singleton_iff.mp (Option.some.inj dump)
      obtain ⟨name, shape⟩ := Prod.mk.inj shape
      obtain ⟨reason, shape⟩ := Prod.mk.inj shape
      obtain ⟨place, deep⟩ := Prod.mk.inj shape
      have locals := (List.cons.inj (Option.some.inj inside)).1
      have on : remembering.postMortem = true := rfl
      obtain ⟨-, dies, shows⟩ := postMortem_of_uncaught on rfl rfl (by decide) recorded
      have here := List.mem_singleton_self node
      obtain ⟨-, -, site, crashes, -⟩ := dies.mp ⟨node, here, name, reason⟩
      have showsSite := shows node here ⟨name, reason⟩ site crashes
      have position := place.symm.trans showsSite.position
      have depth := deep.symm.trans showsSite.depth
      simp only [List.cons.injEq, Kdl.Value.mk.injEq, Kdl.Literal.text.injEq, Kdl.Literal.integer.injEq,
        Option.some_inj, true_and, and_true] at position depth
      refine ⟨node, site, rfl, ⟨name, reason⟩, crashes, ?_, depth.symm, showsSite, locals⟩
      obtain ⟨⟨file, line⟩, _, _⟩ := site
      exact congrArg₂ Position.mk position.1.symm position.2.symm

end Recording

end EventDebugger
