import EventDebugger.Proofs.Production.Accounts

/-!
# Where the threads of a program are

A thread of a program is on no system thread before it starts and after it has exited, and on none but its
own meanwhile, whatever the others do to the host.

* `Production.Sound.goes`, `Production.Sound.exit`: a thread that runs stays where it is until it exits.
-/

namespace EventDebugger

variable {ε : Type}

namespace Player

/-- Where a thread is on the host: on no system thread before it starts and after it exited, and
meanwhile on none but its own. -/
def Placed (player : Player ε) (host : Host) (s : Nat) : Prop :=
  match player.phase with
  | .starting => host.Unbound player.thread ∧ (host.record? player.thread).isSome
  | .exited _ | .gone _ | .abandoned => host.Over player.thread
  | _ => host.Seated player.thread s

variable {player : Player ε} {host host' : Host} {s : Nat}

theorem placed_iff_of_onStage (onStage : player.OnStage) :
    player.Placed host s ↔ host.Seated player.thread s := by
  rcases onStage with running | ⟨result, ending⟩
  · rw [Placed]
    cases phase : player.phase <;> rw [phase] at running <;> first | rfl | cases running
  · rw [Placed, ending]

theorem Placed.here (placed : player.Placed host s) {s' : Nat}
    (bound : host.boundTo? s' = some player.thread) : s' = s := by
  rw [Placed] at placed
  split at placed
  · exact absurd bound (placed.1 s')
  · exact absurd bound (placed.unbound s')
  · exact absurd bound (placed.unbound s')
  · exact absurd bound (placed.unbound s')
  · exact (placed s' bound).1

theorem Placed.drift {own : Thread → Prop} (placed : player.Placed host s)
    (drifts : Host.Drifts own host host') (listed : host.Listed)
    (known : player.thread.id ≤ host.threadCount) (mine : own player.thread) :
    player.Placed host' s := by
  rw [Placed] at placed ⊢
  split at placed
  · exact ⟨drifts.unbound listed known mine placed.1, drifts.recorded listed known mine placed.2⟩
  · exact drifts.over listed known mine placed
  · exact drifts.over listed known mine placed
  · exact drifts.over listed known mine placed
  · exact drifts.seated listed known mine placed

end Player

namespace Production

variable {p p' : Production ε} {s s' : Nat} {player player' q : Player ε} {d : Debugger}

structure Sound (p : Production ε) : Prop where
  listed : p.debugger.host.Listed
  registered : p.debugger.host.Registered
  known : ∀ {s player}, p.players s = some player → player.thread.id ≤ p.debugger.host.threadCount
  apart : ∀ {s s' player player'}, p.players s = some player → p.players s' = some player' →
    player.thread = player'.thread → s = s'
  placed : ∀ {s player}, p.players s = some player → player.Placed p.debugger.host s
  accounts : ∀ {s player}, p.players s = some player → player.Accounts
  enrolled : ∀ {s player}, p.players s = some player → s ∈ p.cast

theorem Sound.move (sound : p.Sound) (enrolled : s ∈ p.cast) (continues : p.debugger.host.Continues d.host)
    (registered : d.host.Registered) (known : player.thread.id ≤ d.host.threadCount)
    (apart : ∀ {s' q}, p.players s' = some q → s' ≠ s → q.thread ≠ player.thread)
    (others : ∀ {s' q}, p.players s' = some q → s' ≠ s → q.Placed d.host s')
    (placed : player.Placed d.host s) (accounts : player.Accounts) : (p.move s player d).Sound := by
  refine ⟨continues.listed sound.listed, registered, ?_, ?_, ?_, ?_, ?_⟩
  · intro s' q is
    rcases players_move is with ⟨rfl, rfl⟩ | ⟨-, is⟩
    · exact known
    · exact Nat.le_trans (sound.known is) continues.count
  · intro s₁ s₂ q₁ q₂ is₁ is₂ same
    rcases players_move is₁ with ⟨rfl, new₁⟩ | ⟨ne₁, old₁⟩ <;>
      rcases players_move is₂ with ⟨rfl, new₂⟩ | ⟨ne₂, old₂⟩
    · rfl
    · exact absurd (same.symm.trans (congrArg _ new₁)) (apart old₂ ne₂)
    · exact absurd (same.trans (congrArg _ new₂)) (apart old₁ ne₁)
    · exact sound.apart old₁ old₂ same
  · intro s' q is
    rcases players_move is with ⟨rfl, rfl⟩ | ⟨ne, is⟩
    · exact placed
    · exact others is ne
  · intro s' q is
    rcases players_move is with ⟨rfl, rfl⟩ | ⟨-, is⟩
    · exact accounts
    · exact sound.accounts is
  · intro s' q is
    rcases players_move is with ⟨rfl, rfl⟩ | ⟨-, is⟩
    · exact enrolled
    · exact sound.enrolled is

theorem Sound.move_of_drifts (sound : p.Sound) (is : p.players s = some player)
    (thread : player'.thread = player.thread)
    (drifts : ∀ own, Host.Drifts own p.debugger.host d.host)
    (placed : player'.Placed d.host s) (accounts : player'.Accounts) : (p.move s player' d).Sound := by
  have continues := (drifts fun _ => True).continues
  refine sound.move (sound.enrolled is) continues ((drifts fun _ => True).registered sound.registered)
    ?_ ?_ ?_ placed accounts
  · rw [thread]
    exact Nat.le_trans (sound.known is) continues.count
  · intro s' q is' ne same
    exact ne (sound.apart is' is (same.trans thread))
  · intro s' q is' _
    exact (sound.placed is').drift (drifts _) sound.listed (sound.known is') rfl

theorem Sound.drift (sound : p.Sound) (players : p'.players = p.players) (cast : p'.cast = p.cast)
    (drifts : Host.Drifts p.Owns p.debugger.host p'.debugger.host) : p'.Sound := by
  have continues := drifts.continues
  refine ⟨continues.listed sound.listed, drifts.registered sound.registered, ?_, ?_, ?_, ?_, ?_⟩
  · intro s q is
    rw [players] at is
    exact Nat.le_trans (sound.known is) continues.count
  · intro s₁ s₂ q₁ q₂ is₁ is₂ same
    rw [players] at is₁ is₂
    exact sound.apart is₁ is₂ same
  · intro s q is
    rw [players] at is
    exact (sound.placed is).drift drifts sound.listed (sound.known is) ⟨s, q, is, rfl⟩
  · intro s q is
    rw [players] at is
    exact sound.accounts is
  · intro s q is
    rw [players] at is
    rw [cast]
    exact sound.enrolled is

theorem sameThreads_declare (host : Host) (program : Program) :
    host.SameThreads (host.declare program) := by
  rw [Host.declare_eq]
  exact ⟨rfl, rfl, rfl⟩

theorem drifts_spawn (host : Host) (decl : ThreadDecl) (own : Thread → Prop) :
    Host.Drifts own host (host.spawn decl).2 :=
  .tail (.single (.register host decl.name)) (.execute (host.sameThreads_spawn decl))

theorem Sound.spawn (sound : p.Sound) (system : Nat) (decl : ThreadDecl) (decls : List ThreadDecl) :
    (p.spawn system decl decls).Sound := by
  have drifts := drifts_spawn p.debugger.host decl
  have same := p.debugger.host.sameThreads_spawn decl
  have new : (p.debugger.host.spawn decl).1.id = p.debugger.host.threadCount + 1 := rfl
  have count : (p.debugger.host.spawn decl).2.threadCount = p.debugger.host.threadCount + 1 :=
    same.count
  have enrolled : ({ p with cast := p.cast ++ [system] } : Production ε).Sound :=
    ⟨sound.listed, sound.registered, sound.known, sound.apart, sound.placed, sound.accounts,
      fun is => List.mem_append_left _ (sound.enrolled is)⟩
  have moved : (({ p with cast := p.cast ++ [system] } : Production ε).move system
      ⟨(p.debugger.host.spawn decl).1, decl.steps, [], .starting⟩
      (p.onHost (p.debugger.host.spawn decl).2)).Sound := by
    refine enrolled.move (by simp) (drifts fun _ => True).continues
      ((drifts fun _ => True).registered sound.registered) ?_ ?_ ?_ ⟨?_, ?_⟩ ⟨?_, ?_, fun _ _ => rfl⟩
    · exact Nat.le_of_eq (new.trans count.symm)
    · intro s q is _ same
      have old : q.thread.id ≤ p.debugger.host.threadCount := sound.known is
      rw [same, new] at old
      exact absurd old (Nat.not_succ_le_self _)
    · intro s q is _
      exact (sound.placed is).drift (drifts _) sound.listed (sound.known is) rfl
    · intro s bound
      have registered : Host.Registered p.debugger.host := sound.registered
      rw [onHost, same.boundTo?_eq, Host.boundTo?_register] at bound
      have old := registered bound
      rw [new] at old
      exact absurd old (Nat.not_succ_le_self _)
    · have recorded : ((p.debugger.host.register decl.name).2.record?
          (p.debugger.host.spawn decl).1).isSome := by
        have self : (p.debugger.host.spawn decl).1 = (p.debugger.host.register decl.name).1 := rfl
        rw [Host.record?_register sound.listed, if_pos self]
        rfl
      rw [onHost, Host.isSome_record?, same.identities, ← Host.isSome_record?]
      exact recorded
    · intro actions ahead
      cases ahead
    · intro result gone
      cases gone
  exact moved.drift rfl rfl .refl

theorem Sound.start (sound : p.Sound) (is : p.players s = some player) (phase : player.phase = .starting) :
    (p.start s player).Sound := by
  obtain ⟨unbound, recorded⟩ : p.debugger.host.Unbound player.thread ∧
      (p.debugger.host.record? player.thread).isSome := by
    have placed := sound.placed is
    rwa [Player.Placed, phase] at placed
  have entered : p.debugger.host.SameThreads
      { p.debugger.host with scopes := p.debugger.host.scopes.enterMethod.2 } := ⟨rfl, rfl, rfl⟩
  have bound : Host.Operates { p.debugger.host with scopes := p.debugger.host.scopes.enterMethod.2 }
      ({ p.debugger.host with scopes := p.debugger.host.scopes.enterMethod.2 }.bind s player.thread) :=
    .bind s (sound.known is)
  refine sound.move (sound.enrolled is) (entered.continues.trans bound.continues)
    (bound.registered sound.registered) ?_ ?_ ?_ ?_ ?_
  · exact (sound.known is :)
  · intro s' q is' ne same
    exact ne (sound.apart is' is same)
  · intro s' q is' ne
    have drifts : Host.Drifts (· = q.thread) p.debugger.host
        ({ p.debugger.host with scopes := p.debugger.host.scopes.enterMethod.2 }.bind s player.thread) := by
      refine .tail entered.drifts (.bind (sound.known is) ?_ ?_)
      · exact fun same => ne (sound.apart is' is same.symm)
      · rintro running runs rfl
        exact ne ((sound.placed is').here runs).symm
    exact (sound.placed is').drift drifts sound.listed (sound.known is') rfl
  · intro s' runs
    rw [onHost, Host.boundTo?_bind] at runs
    split at runs
    · next here =>
        subst here
        exact ⟨rfl, Host.seat?_bind_self recorded s'⟩
    · exact absurd runs (unbound s')
  · have idle := (sound.accounts is).outside (by rw [phase]; rfl) (by rw [phase]; rfl)
    refine Player.accounts_of_ahead rfl ?_ ?_
    · simp only [Player.failures, Player.become, idle, List.filterMap_nil]
    · simp only [Player.acted, Player.become, idle, List.filterMap_nil, List.nil_append, Player.actions]

theorem Sound.goes (sound : p.Sound) (is : p.players s = some player) (goes : player.Goes player')
    (drifts : ∀ own, Host.Drifts own p.debugger.host d.host) : (p.move s player' d).Sound := by
  refine sound.move_of_drifts is goes.thread drifts ?_ (goes.accounts (sound.accounts is))
  have seated := (Player.placed_iff_of_onStage goes.onStage).mp (sound.placed is)
  rw [Player.placed_iff_of_onStage goes.onStage', goes.thread]
  exact (drifts (· = player.thread)).seated sound.listed (sound.known is) rfl seated

theorem Sound.exit (sound : p.Sound) (is : p.players s = some player)
    (seated : p.debugger.host.Seated player.thread s) {phase : Player.Phase ε}
    (placed : ∀ {host : Host}, host.Over player.thread → (player.become phase).Placed host s)
    (accounts : (player.become phase).Accounts) : (p.exit s player phase).Sound :=
  sound.move_of_drifts is rfl (fun _ => .single (.exit _ player.thread)) (placed seated.exit) accounts

theorem Sound.exit_of_ending (sound : p.Sound) (is : p.players s = some player) {result : HookResult ε}
    (phase : player.phase = .ending result) : (p.exit s player (.exited result)).Sound := by
  have seated := (Player.placed_iff_of_onStage (.inr ⟨result, phase⟩)).mp (sound.placed is)
  refine sound.exit is seated id (Player.accounts_of_result rfl ?_)
  exact (sound.accounts is).result result (by rw [phase]; rfl)

theorem Sound.abandon (sound : p.Sound) (is : p.players s = some player)
    (idle : player.phase = .starting ∨ player.phase = .abandoned) : (p.exit s player .abandoned).Sound := by
  have placed := sound.placed is
  have accounts := sound.accounts is
  rw [Player.Placed] at placed
  rcases idle with phase | phase <;> rw [phase] at placed
  · refine sound.exit is (placed.1.seated s) id ⟨nofun, nofun, fun _ _ => ?_⟩
    exact accounts.outside (by rw [phase]; rfl) (by rw [phase]; rfl)
  · refine sound.exit is (placed.unbound.seated s) id ⟨nofun, nofun, fun _ _ => ?_⟩
    exact accounts.outside (by rw [phase]; rfl) (by rw [phase]; rfl)

theorem Sound.report (sound : p.Sound) (is : p.players s = some player) {result : HookResult ε}
    (phase : player.phase = .exited result) : (p.report s player result).Sound := by
  have placed := sound.placed is
  rw [Player.Placed, phase] at placed
  have moved : (p.move s (player.become (.gone result)) p.debugger).Sound :=
    sound.move_of_drifts is rfl (fun _ => .refl) placed (Player.accounts_of_result rfl
      ((sound.accounts is).result result (by rw [phase]; rfl)))
  exact moved.drift rfl rfl .refl

end Production

end EventDebugger
