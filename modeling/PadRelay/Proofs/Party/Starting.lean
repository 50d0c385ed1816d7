import PadRelay.Proofs.Party.Origins

/-!
This module contains the proof that the game of a player starts at most once: there is never more than
one event on its way that starts a game, and none once there are queues. So queues are never replaced.
-/

namespace PadRelay

variable {β : Type} {coder : Coder β}

section Queues

variable {queues queues' : Queues β} {keys : List KeyState}

theorem storeUpdates_empty (consoleId : ConsoleId) (localPorts : PortSet)
    (updates : List (ButtonUpdate β))
    : (Game.storeUpdates coder consoleId localPorts updates ∅).2 = ∅ := by
  cases updates with
  | nil => rfl
  | cons u rest => rfl

theorem Game.Stores.eq_empty (h : Game.Stores coder keys queues queues') (hempty : queues = ∅)
    : queues' = ∅ := by
  induction h with
  | refl => exact hempty
  | put _ _ hq _ _ ih =>
    rw [ih] at hq
    simp at hq

end Queues

theorem Player.Acts.queues_empty [Inhabited β] {s : Server} {h : Nat} {x x' : Player β} {m : Move β}
    {obs : List (Observation β)} (ha : x.Acts coder s h m x' obs) (hempty : x.game.queues = ∅)
    : x'.game.queues = ∅ ∨
        (∃ h', m = .await h') ∧ x'.stream = x.stream ∧
          ∃ e, x.game.unread = e :: x'.game.unread ∧ e.start.isSome = true := by
  cases ha with
  | await ho =>
    rcases (Game.awaitStart?_cases ho).2.2 with ⟨heq, _⟩ | ⟨e, heq, hq | ⟨start, hstart, _⟩⟩
    . exact Or.inl (heq.trans hempty)
    . exact Or.inl (hq.trans hempty)
    . exact Or.inr ⟨⟨_, rfl⟩, rfl, e, heq, by simp [hstart]⟩
  | put howns =>
    left
    rw [Game.put_game, hempty]
    exact storeUpdates_empty _ _ _
  | get ho =>
    left
    rcases Game.got_get? ho with ⟨queues, hgot, _⟩
    have hqueues := hgot.stores.eq_empty hempty
    rcases hgot.result with ⟨_, _, heq⟩ | ⟨_, q, _, _, hq, _⟩
    . exact heq.trans hqueues
    . rw [hqueues] at hq
      simp at hq
  | _ => exact Or.inl hempty

theorem Server.starts_append (events events' : List IncomingEvent)
    : starts (events ++ events') = starts events + starts events' := by
  simp [starts]

theorem Server.starts_le {events events' : List IncomingEvent} (h : List.Sublist events events')
    : starts events ≤ starts events' :=
  h.countP_le

namespace Party

/-- A game that has not started yet is started at most once, and then never again. -/
structure Starts (p : Party β) : Prop where
  once : ∀ (h : Nat) (x : Player β), p.players[h]? = some x → Server.starts (x.flow p.server) ≤ 1
  connected : ∀ (h : Nat) (x : Player β), p.players[h]? = some x → x.game.queues ≠ ∅ →
    Server.starts (x.flow p.server) = 0
  created : ∀ (h : Nat) (x : Player β), p.players[h]? = some x →
    (∀ c, p.server.lobby.console? p.console = some c → c.status = .created) →
      Server.starts (x.flow p.server) = 0 ∧ x.game.queues = ∅

variable {p : Party β} {m : Move β}

section Step

variable [Inhabited β] {h : Nat} {x' : Player β}

theorem starts_dues (hsound : p.Sound coder) (hx' : (p.step coder m).players[h]? = some x')
    : Server.starts (x'.dues p.server (p.operation? m)) = 0 ∨
        Server.starts (x'.dues p.server (p.operation? m)) = 1 ∧
          (∀ c, p.server.lobby.console? p.console = some c → c.status = .created) ∧
          ∃ c, (p.step coder m).server.lobby.console? p.console = some c ∧ c.status ≠ .created := by
  have hseated := seated_step coder hsound.seated hsound.announces m
  by_cases hexists : ∃ e ∈ x'.dues p.server (p.operation? m), e.start.isSome = true
  . right
    rcases hexists with ⟨e, he, hstart⟩
    have hpos : 0 < Server.starts (x'.dues p.server (p.operation? m)) :=
      List.countP_pos_iff.2 ⟨e, he, hstart⟩
    unfold Player.dues at he hpos ⊢
    split at he
    . next i op hi hop =>
      have hserver : (p.step coder m).server = p.server.step op := served_of_operation? hop
      have hle := Server.starts_due_le p.server op i
      simp only [hi, hop] at hpos ⊢
      refine ⟨by omega, ?_⟩
      cases Server.carries_of_due hsound.seated.consistent he with
      | nothing hnone _ => simp [hnone] at hstart
      | keys => simp at hstart
      | @start b c c' hb hc hcreated hc' hpowered =>
        have hb' := Server.boundTo_step hsound.seated.consistent hb op
        have hself := hseated.bound h x' i b hx' hi (hserver ▸ hb')
        have hconsole : b.console = p.console := by
          rw [hself]
          rfl
        rw [hconsole] at hc hc'
        refine ⟨?_, c', hserver ▸ hc', hpowered⟩
        intro c₁ hc₁
        rw [hc, Option.some.injEq] at hc₁
        rw [← hc₁]
        exact hcreated
    . simp at he
  . left
    unfold Server.starts
    rw [List.countP_eq_zero]
    intro e he hstart
    exact hexists ⟨e, he, hstart⟩

theorem created_of_created_step (hsound : p.Sound coder)
    (hcreated : ∀ c, (p.step coder m).server.lobby.console? p.console = some c →
      c.status = .created)
    : ∀ c, p.server.lobby.console? p.console = some c → c.status = .created := by
  cases hop : p.operation? m with
  | none =>
    have hserver : (p.step coder m).server = p.server := served_of_none hop
    rwa [hserver] at hcreated
  | some op =>
    have hserver : (p.step coder m).server = p.server.step op := served_of_operation? hop
    rw [hserver] at hcreated
    exact Server.created_of_step hsound.seated.consistent hcreated

theorem queues_empty_step {x : Player β} (hx : p.players[h]? = some x)
    (hx' : (p.step coder m).players[h]? = some x') (hempty : x.game.queues = ∅)
    : x'.game.queues = ∅ ∨
        Server.starts (x.flow p.server)
          = Server.starts (x'.flow (p.step coder m).server) + 1 := by
  cases yields_step hx' with
  | rest hx₁ _ =>
    rw [hx, Option.some.injEq] at hx₁
    rw [← hx₁]
    exact Or.inl hempty
  | seat hh _ _ =>
    rw [hh] at hx
    simp at hx
  | @move y _ hy hmover hacts =>
    rw [hx, Option.some.injEq] at hy
    subst hy
    -- Queues appear when the event that starts the game is read, which takes it off the way.
    rcases hacts.queues_empty hempty with hq | ⟨⟨a, rfl⟩, hstream, e, heq, hstart⟩
    . exact Or.inl hq
    . right
      have hop : p.operation? (.await a) = none := by
        simp [operation?, hmover, Player.operation?]
      have hserver : (p.step coder (.await a)).server = p.server := served_of_none hop
      have hflow : x.flow p.server = e :: x'.flow p.server := by
        unfold Player.flow Player.mail
        rw [heq, hstream]
        rfl
      rw [hserver, hflow]
      simp [Server.starts, hstart]

theorem starts_step (hsound : p.Sound coder) (hstarts : p.Starts) (m : Move β)
    : (p.step coder m).Starts := by
  constructor
  . intro h x' hx'
    rcases flow_step hsound.seated hx' with ⟨x, hx, _, hflow⟩ | ⟨_, hnil⟩
    . -- What is due adds a start only if the console was waiting, and then none was on its way.
      have hle := Server.starts_le hflow
      rw [Server.starts_append] at hle
      have honce := hstarts.once h x hx
      rcases starts_dues hsound hx' with hzero | ⟨hone, hcreated, _⟩
      . omega
      . have := (hstarts.created h x hx hcreated).1
        omega
    . rw [hnil]
      exact Nat.zero_le 1
  . intro h x' hx' hne
    rcases flow_step hsound.seated hx' with ⟨x, hx, _, hflow⟩ | ⟨_, hnil⟩
    . by_cases hempty : x.game.queues = ∅
      . rcases queues_empty_step hx hx' hempty with hq | heq
        . exact absurd hq hne
        . have := hstarts.once h x hx
          omega
      . have hle := Server.starts_le hflow
        rw [Server.starts_append] at hle
        have hzero := hstarts.connected h x hx hempty
        rcases starts_dues hsound hx' with hdues | ⟨_, hcreated, _⟩
        . omega
        . exact absurd (hstarts.created h x hx hcreated).2 hempty
    . rw [hnil]
      rfl
  . intro h x' hx' hcreated'
    rcases flow_step hsound.seated hx' with ⟨x, hx, _, hflow⟩ | ⟨hnew, hnil⟩
    . have hcreated := hstarts.created h x hx (created_of_created_step hsound hcreated')
      have hle := Server.starts_le hflow
      rw [Server.starts_append] at hle
      constructor
      . rcases starts_dues hsound hx' with hdues | ⟨_, _, c, hc, hpowered⟩
        . omega
        . exact absurd (hcreated' c hc) hpowered
      . rcases queues_empty_step hx hx' hcreated.2 with hq | heq
        . exact hq
        . omega
    . rw [hnil]
      exact ⟨rfl, (newcomer_step hsound.seated hnew).queues⟩

end Step

end Party
end PadRelay
