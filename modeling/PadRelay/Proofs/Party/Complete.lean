import PadRelay.Proofs.Party.Agreement

/-!
This module contains the proof that a player whose game is running has a queue for every port that
belongs to a client. The event that starts a game names all those ports, and none is given away later.
-/

namespace PadRelay

variable {β : Type} {coder : Coder β}

theorem Player.Acts.running [Inhabited β] {s : Server} {h : Nat} {x x' : Player β} {m : Move β}
    {obs : List (Observation β)} (ha : x.Acts coder s h m x' obs)
    (hrunning : x'.game.status = .running)
    : (x.game.status = .running ∧
        ((∀ port q, x.game.queues.get? port = some q → ∃ q', x'.game.queues.get? port = some q') ∨
          ∃ e ∈ x.game.unread, e.start.isSome = true)) ∨
      ∃ e start, e ∈ x.game.unread ∧ e.start = some start ∧
        Game.Connects x.game.localPorts start.ports x.game.queues x'.game.queues := by
  cases ha with
  | await ho =>
    rcases Game.awaitStart?_running ho hrunning with ⟨hrun, heq | hstart⟩ | hstart
    . exact Or.inl ⟨hrun, Or.inl fun port q hq => ⟨q, heq ▸ hq⟩⟩
    . exact Or.inl ⟨hrun, Or.inr hstart⟩
    . exact Or.inr hstart
  | @put _ updates howns =>
    left
    rw [Game.put_game] at hrunning ⊢
    refine ⟨hrunning, Or.inl ?_⟩
    have hext := Game.storeUpdates_induction coder x.game.consoleId x.game.localPorts updates
      (P := fun queues _ => ExtendsAll x.game.queues queues)
      (fun _ _ _ _ _ hP _ hq hput => hP.trans (extendsAll_insert hq (FrameQueue.extends_put hput)))
      x.game.queues [] (.refl x.game.queues)
    intro port q hq
    rcases (hext port).2 q hq with ⟨q', hq', _⟩
    exact ⟨q', hq'⟩
  | get ho =>
    left
    have hrun : x.game.status = .running := by
      rcases Game.status_get? ho with heq | heq
      . rw [← heq]
        exact hrunning
      . dsimp at hrunning
        simp [heq] at hrunning
    refine ⟨hrun, Or.inl ?_⟩
    rcases Game.got_get? ho with ⟨queues, hgot, _⟩
    have hext := hgot.stores.extendsAll
    intro port q hq
    rcases (hext port).2 q hq with ⟨q', hq', _⟩
    rcases hgot.result with ⟨_, _, heq⟩ | ⟨_, _, q'', _, _, _, heq⟩
    . exact ⟨q', heq ▸ hq'⟩
    . dsimp
      rw [heq, SortedMap.get?_insert]
      split
      . exact ⟨q'', rfl⟩
      . exact ⟨q', hq'⟩
  | _ => exact Or.inl ⟨hrunning, Or.inl fun _ q hq => ⟨q, hq⟩⟩

namespace Party

/-- The start of a game names all ports that clients own, and so do the queues of a running game. -/
structure Complete (p : Party β) : Prop where
  layout : ∀ (h : Nat) (x : Player β), p.players[h]? = some x → ∀ e ∈ x.flow p.server, ∀ start,
    e.start = some start → ∀ port delay, p.Owned port delay →
      ∃ connected ∈ start.ports, Port.ofNumber connected.port = port
  queues : ∀ (h : Nat) (x : Player β), p.players[h]? = some x → x.game.status = .running →
    ∀ port delay, p.Owned port delay → ∃ q, x.game.queues.get? port = some q

variable {p : Party β} {m : Move β} {h : Nat} {x : Player β} {port : Port} {delay : Int32}

theorem mem_startEvent_of_owned (hseated : Seated p.server p.console p.players) {c : Console}
    (hc : p.server.lobby.console? p.console = some c) {start : StartGame}
    (hstart : c.startEvent.start = some start) (howned : p.Owned port delay)
    : ∃ connected ∈ start.ports, Port.ofNumber connected.port = port := by
  rcases howned with ⟨id, ports, hclaim, hport⟩
  rw [Server.claim?_of_console? hc, Console.claim?_eq_some_iff] at hclaim
  rcases hclaim with ⟨m, hm, rfl, hdelay⟩
  have hentry := (hseated.exclusive _ c hc).get?_portDelays_iff.2 ⟨id, m, hm, hport, hdelay⟩
  simp only [Console.startEvent, Option.some.injEq] at hstart
  rw [← hstart]
  refine ⟨_, List.mem_map_of_mem (SortedMap.get?_eq_some_iff.1 hentry), ?_⟩
  exact Port.ofNumber_number port

theorem exists_owned (hseated : Seated p.server p.console p.players)
    (hx : p.players[h]? = some x)
    : ∃ port, x.game.localPorts.contains port = true ∧ p.Owned port x.emulator.delay := by
  have hclaim := hseated.claim h x hx
  rcases Server.claim?_eq_some_iff.1 hclaim with ⟨c, m, hc, hm, hports, _⟩
  rcases (hseated.exclusive _ c hc).nonempty _ m hm with ⟨port, hport⟩
  unfold Member.owns at hport
  rw [hports] at hport
  exact ⟨port, hport, _, _, hclaim, hport⟩

theorem Complete.queues_ne_empty (hcomplete : p.Complete)
    (hseated : Seated p.server p.console p.players) (hx : p.players[h]? = some x)
    (hrunning : x.game.status = .running) : x.game.queues ≠ ∅ := by
  rcases exists_owned hseated hx with ⟨port, _, howned⟩
  rcases hcomplete.queues h x hx hrunning port _ howned with ⟨q, hq⟩
  intro hempty
  simp [hempty] at hq

theorem owned_of_owned_step [Inhabited β] (hseated : Seated p.server p.console p.players)
    (hstarted : ¬ ∀ c, (p.step coder m).server.lobby.console? p.console = some c →
      c.status = .created)
    (howned : (p.step coder m).Owned port delay) : p.Owned port delay := by
  rcases howned with ⟨id, ports, hclaim, hport⟩
  refine ⟨id, ports, ?_, hport⟩
  have hserver : (p.step coder m).server = p.served m := rfl
  rw [hserver] at hclaim hstarted
  cases hop : p.operation? m with
  | none =>
    rw [served_of_none hop] at hclaim
    exact hclaim
  | some op =>
    rw [served_of_operation? hop] at hclaim hstarted
    cases hserved : p.server.served op with
    | false =>
      rw [← (Server.preserves_step hseated.consistent hserved).claim?]
      exact hclaim
    | true =>
      rcases Server.plugs_step hserved with ⟨k, ports', delay', hplugs⟩
      -- Ports are only assigned while a console waits for its game.
      have hne : p.console ≠ k := by
        intro heq
        apply hstarted
        rcases hplugs.created with ⟨c, hc, hcreated⟩
        intro c' hc'
        rw [heq, hc, Option.some.injEq] at hc'
        rw [← hc']
        exact hcreated
      have hsame := hplugs.claim? p.console id
      rw [if_neg fun heq => hne heq.1] at hsame
      rw [← hsame]
      exact hclaim

variable [Inhabited β]

theorem complete_step (hsound : p.Sound coder) (hstarts : p.Starts) (hcomplete : p.Complete)
    (m : Move β) : (p.step coder m).Complete := by
  have hstarts' := starts_step hsound hstarts m
  have hmem : ∀ {e : IncomingEvent} {events}, e ∈ events → e.start.isSome = true →
      0 < Server.starts events := fun he hstart => List.countP_pos_iff.2 ⟨_, he, hstart⟩
  constructor
  . intro h x' hx' e he start hstart port delay howned
    have howned : p.Owned port delay := by
      apply owned_of_owned_step hsound.seated _ howned
      intro hcreated
      have := (hstarts'.created h x' hx' hcreated).1
      have := hmem he (by simp [hstart])
      omega
    rcases flow_step hsound.seated hx' with ⟨x, hx, _, hflow⟩ | ⟨_, hnil⟩
    . cases List.mem_append.1 (hflow.subset he) with
      | inl he => exact hcomplete.layout h x hx e he start hstart port delay howned
      | inr he =>
        rcases dues_cases hsound hx' he with ⟨hnone, _⟩ | ⟨c, hc, rfl⟩ | ⟨_, _, _, _, _, _, rfl⟩
        . simp [hnone] at hstart
        . exact mem_startEvent_of_owned hsound.seated hc hstart howned
        . simp at hstart
    . simp [hnil] at he
  . intro h x' hx' hrunning port delay howned
    have hold : ∀ {x : Player β}, p.players[h]? = some x → x'.game.queues ≠ ∅ →
        p.Owned port delay := by
      intro x hx hne
      apply owned_of_owned_step hsound.seated _ howned
      intro hcreated
      exact hne (hstarts'.created h x' hx' hcreated).2
    cases yields_step hx' with
    | rest hx _ =>
      have hne := hcomplete.queues_ne_empty hsound.seated hx hrunning
      exact hcomplete.queues h x' hx hrunning port delay (hold hx hne)
    | seat _ _ hnew =>
      rw [(newcomer_step hsound.seated hnew).status] at hrunning
      simp at hrunning
    | @move x _ hx _ hacts =>
      rcases exists_owned hsound.seated hx with ⟨own, _, hown⟩
      have hne : ∀ {q}, x'.game.queues.get? own = some q → x'.game.queues ≠ ∅ := by
        intro q hq hempty
        simp [hempty] at hq
      have hflow : ∀ {e}, e ∈ x.game.unread → e ∈ x.flow p.server :=
        fun he => List.mem_append_left _ he
      rcases hacts.running hrunning with
        ⟨hrun, hkept | ⟨e, he, hstart⟩⟩ | ⟨e, start, he, hstart, hconnects⟩
      . rcases hcomplete.queues h x hx hrun own _ hown with ⟨q, hq⟩
        rcases hkept own q hq with ⟨q', hq'⟩
        rcases hcomplete.queues h x hx hrun port delay (hold hx (hne hq')) with ⟨q₁, hq₁⟩
        exact hkept port q₁ hq₁
      . -- The game of a player who has queues is not started again.
        have hzero := hstarts.connected h x hx (hcomplete.queues_ne_empty hsound.seated hx hrun)
        have := hmem (hflow he) hstart
        omega
      . have hthere : ∀ {port delay}, p.Owned port delay →
            ∃ q, x'.game.queues.get? port = some q := by
          intro port delay howned
          rcases hcomplete.layout h x hx e (hflow he) start hstart port delay howned with
            ⟨connected, hmem, rfl⟩
          exact hconnects.connected connected hmem
        rcases hthere hown with ⟨q, hq⟩
        exact hthere (hold hx (hne hq))

omit [Inhabited β] in
theorem complete_start (testMode : Bool) (limit : Option Nat) (ops : List Server.Operation)
    : (start (β := β) ((Server.initial testMode limit).run ops)).Complete := by
  constructor
  . intro h x hx
    simp [start] at hx
  . intro h x hx
    simp [start] at hx

theorem complete_run (hcoder : coder.Lawful) (hord : p.Orderly coder) (hcomplete : p.Complete)
    (moves : List (Move β)) : (p.run coder moves).Complete := by
  induction moves generalizing p with
  | nil => exact hcomplete
  | cons m moves ih =>
    exact ih (orderly_run hcoder hord [m]) (complete_step hord.sound hord.starts hcomplete m)

end Party
end PadRelay
