import PadRelay.Proofs.Party.Flow

/-!
This module contains the proof that buttons come from nowhere but the player whose port it is: whatever
is on its way, stored or obtained for a port was stored by the owner of the port before.
-/

namespace PadRelay

variable {β : Type}

namespace Seated

variable {s : Server} {k : Nat} {players : List (Player β)}

theorem claim_unique (h : Seated s k players) {id id' : ClientId} {ports ports' : PortSet}
    {delay delay' : Int32} {port : Port} (hid : s.claim? k id = some (ports, delay))
    (hid' : s.claim? k id' = some (ports', delay')) (hport : ports.contains port = true)
    (hport' : ports'.contains port = true) : id = id' ∧ delay = delay' := by
  rcases Server.claim?_eq_some_iff.1 hid with ⟨c, m, hc, hm, rfl, rfl⟩
  rcases Server.claim?_eq_some_iff.1 hid' with ⟨c', m', hc', hm', rfl, rfl⟩
  rw [hc, Option.some.injEq] at hc'
  subst hc'
  have heq := (h.exclusive k c hc).disjoint id id' m m' port hm hm' hport hport'
  rw [heq, hm', Option.some.injEq] at hm
  exact ⟨heq, by rw [hm]⟩

theorem owner_unique (h : Seated s k players) {i j : Nat} {x y : Player β} {port : Port}
    (hx : players[i]? = some x) (hy : players[j]? = some y)
    (hport : x.game.localPorts.contains port = true)
    (hport' : y.game.localPorts.contains port = true) : i = j :=
  h.distinct i j x y hx hy (h.claim_unique (h.claim i x hx) (h.claim j y hy) hport hport').1

end Seated

namespace Party

/-- Player `o` owns a port and has stored these buttons for it, which belong to this frame. -/
def Backs (p : Party β) (o : Nat) (port : Port) (frame : Int32) (buttons : β) : Prop :=
  ∃ x g, p.players[o]? = some x ∧ x.game.localPorts.contains port = true ∧
    frame.toInt = g.toInt + x.emulator.delay.toInt ∧ .stored o ⟨port, g, buttons⟩ ∈ p.log

/-- A message is about buttons of player `o`. -/
def Sends (coder : Coder β) (p : Party β) (o : Nat) (key : KeyState) : Prop :=
  ∃ buttons, coder.decode key = .ok buttons ∧
    p.Backs o (Port.ofNumber key.port) key.frame buttons

/-- A port belongs to a client of the console whose input has this delay. -/
def Owned (p : Party β) (port : Port) (delay : Int32) : Prop :=
  ∃ id ports, p.server.claim? p.console id = some (ports, delay) ∧ ports.contains port = true

/-- The queue of a port holds nothing but what the owner of the port has stored. -/
structure Feeds (p : Party β) (localPorts : PortSet) (port : Port) (q : FrameQueue β) : Prop where
  owned : p.Owned port q.initial
  delay : q.delay = if localPorts.contains port then q.initial else 0
  backed : ∀ frame buttons, q.frames.get? frame = some buttons → ∃ o, p.Backs o port frame buttons

/-- All queues of a player hold nothing but what the owners of the ports have stored. -/
def FeedsAll (p : Party β) (localPorts : PortSet) (queues : Queues β) : Prop :=
  ∀ port q, queues.get? port = some q → p.Feeds localPorts port q

/-- Everything that is on its way or stored comes from the owner of its port. -/
structure Sound (coder : Coder β) (p : Party β) : Prop where
  seated : Seated p.server p.console p.players
  announces : Announces p.players
  sent : ∀ (h : Nat) (x : Player β), p.players[h]? = some x → ∀ e ∈ x.outbox, ∀ key ∈ e.keys,
    p.Sends coder h key
  relayed : ∀ (h : Nat) (x : Player β), p.players[h]? = some x → ∀ e ∈ x.flow p.server,
    ∀ key ∈ e.keys, ∃ o, o ≠ h ∧ p.Sends coder o key
  layout : ∀ (h : Nat) (x : Player β), p.players[h]? = some x → ∀ e ∈ x.flow p.server, ∀ start,
    e.start = some start → ∀ connected ∈ start.ports,
      p.Owned (Port.ofNumber connected.port) connected.delayFrames
  queues : ∀ (h : Nat) (x : Player β), p.players[h]? = some x →
    p.FeedsAll x.game.localPorts x.game.queues

section Step

variable {coder : Coder β} {p : Party β} {m : Move β} {o : Nat} {port : Port} {frame : Int32}
  {buttons : β}

theorem claim?_served (hseated : Seated p.server p.console p.players)
    (hann : Announces p.players) (m : Move β) {k : Nat} {id : ClientId} {x : PortSet × Int32}
    (hx : p.server.claim? k id = some x) : (p.served m).claim? k id = some x := by
  unfold served
  split
  . exact hx
  . next op hop =>
    exact Server.claim?_step_of_fresh hseated.consistent
      (admits_of_operates hseated hann (operates_of_operation? hop)).fresh hx

theorem Feeds.eq_delay {h : Nat} {x : Player β} {q : FrameQueue β}
    (hfeeds : p.Feeds x.game.localPorts port q) (hseated : Seated p.server p.console p.players)
    (hx : p.players[h]? = some x) (hport : x.game.localPorts.contains port = true)
    : q.delay = x.emulator.delay := by
  rcases hfeeds.owned with ⟨id, ports, hclaim, hports⟩
  rw [hfeeds.delay, if_pos hport]
  exact (hseated.claim_unique hclaim (hseated.claim h x hx) hports hport).2

theorem owned_of_mem_startEvent (hseated : Seated p.server p.console p.players) {c : Console}
    (hc : p.server.lobby.console? p.console = some c) {start : StartGame}
    (hstart : c.startEvent.start = some start) {connected : ConnectedPort}
    (hmem : connected ∈ start.ports)
    : p.Owned (Port.ofNumber connected.port) connected.delayFrames := by
  simp only [Console.startEvent, Option.some.injEq] at hstart
  rw [← hstart, List.mem_map] at hmem
  rcases hmem with ⟨entry, hentry, rfl⟩
  rw [← SortedMap.get?_eq_some_iff, (hseated.exclusive _ c hc).get?_portDelays_iff] at hentry
  rcases hentry with ⟨id, m, hm, hport, hdelay⟩
  refine ⟨id, m.ports, ?_, ?_⟩
  . rw [Server.claim?_of_console? hc, Console.claim?_of_get? hm, hdelay]
  . rw [Port.ofNumber_number]
    exact hport

theorem Feeds.put {localPorts : PortSet} {q q' : FrameQueue β} (h : p.Feeds localPorts port q)
    (hput : q.put frame buttons = .ok q')
    (hbacks : ∀ x : Int32, x.toInt = frame.toInt + q.delay.toInt → ∃ o, p.Backs o port x buttons)
    : p.Feeds localPorts port q' := by
  rcases FrameQueue.put_eq_ok_iff.1 hput with ⟨x, _, hx, _, _, _, rfl⟩
  refine ⟨h.owned, h.delay, ?_⟩
  intro frame' buttons' hget
  dsimp at hget
  rw [SortedMap.get?_insert] at hget
  split at hget
  . next heq =>
    rw [Option.some.injEq] at hget
    rw [heq, ← hget]
    exact hbacks x hx
  . exact h.backed frame' buttons' hget

theorem FeedsAll.insert {localPorts : PortSet} {queues : Queues β}
    (h : p.FeedsAll localPorts queues) {q : FrameQueue β} (hq : p.Feeds localPorts port q)
    : p.FeedsAll localPorts (queues.insert port q) := by
  intro port' q' hq'
  rw [SortedMap.get?_insert] at hq'
  split at hq'
  . next heq =>
    rw [Option.some.injEq] at hq'
    rw [heq, ← hq']
    exact hq
  . exact h port' q' hq'

theorem FeedsAll.stores {localPorts : PortSet} {keys : List KeyState} {queues queues' : Queues β}
    (h : p.FeedsAll localPorts queues) (hstores : Game.Stores coder keys queues queues')
    (hkeys : ∀ key ∈ keys, localPorts.contains (Port.ofNumber key.port) = false ∧
      ∃ o, p.Sends coder o key)
    : p.FeedsAll localPorts queues' := by
  induction hstores with
  | refl => exact h
  | @put queues' key q q' buttons _ hmem hq hdecode hput ih =>
    rcases hkeys key hmem with ⟨hremote, o, buttons', hdecode', hbacks⟩
    rw [hdecode, Except.ok.injEq] at hdecode'
    apply ih.insert
    apply (ih _ q hq).put hput
    intro x hx
    refine ⟨o, ?_⟩
    -- The queue of a port of somebody else adds no delay of its own.
    rw [(ih _ q hq).delay, hremote] at hx
    simp only [Bool.false_eq_true, if_false, Int32.toInt_zero, Int.add_zero] at hx
    rw [Int32.toInt_inj.1 hx, hdecode']
    exact hbacks

theorem Sound.remote (hsound : p.Sound coder) {h : Nat} {x : Player β}
    (hx : p.players[h]? = some x) {e : IncomingEvent} (he : e ∈ x.flow p.server) {key : KeyState}
    (hkey : key ∈ e.keys)
    : x.game.localPorts.contains (Port.ofNumber key.port) = false ∧ ∃ o, p.Sends coder o key := by
  rcases hsound.relayed h x hx e he key hkey with ⟨o, hne, hsends⟩
  refine ⟨?_, o, hsends⟩
  rcases hsends with ⟨_, _, y, _, hy, hport, _⟩
  rw [← Bool.not_eq_true]
  intro hlocal
  exact hne (hsound.seated.owner_unique hy hx hport hlocal)

theorem Sound.feeds_pumped (hsound : p.Sound coder) {h : Nat} {x : Player β}
    (hx : p.players[h]? = some x) {queues : Queues β}
    (hstores : Game.Stores coder (x.game.unread.flatMap (·.keys)) x.game.queues queues)
    : p.FeedsAll x.game.localPorts queues := by
  apply (hsound.queues h x hx).stores hstores
  intro key hkey
  rw [List.mem_flatMap] at hkey
  rcases hkey with ⟨e, he, hkey⟩
  exact hsound.remote hx (List.mem_append_left _ he) hkey

theorem feeds_connected (hsound : p.Sound coder) {h : Nat} {x : Player β}
    (hx : p.players[h]? = some x) {e : IncomingEvent} (he : e ∈ x.flow p.server) {start : StartGame}
    (hstart : e.start = some start) {queues : Queues β}
    (hconnects : Game.Connects x.game.localPorts start.ports x.game.queues queues)
    : p.FeedsAll x.game.localPorts queues := by
  intro port q hq
  rcases hconnects.origin port q hq with hq | ⟨connected, hmem, rfl, rfl⟩
  . exact hsound.queues h x hx port q hq
  . have howned := hsound.layout h x hx e he start hstart connected hmem
    unfold Game.newQueue
    split
    . next hlocal =>
      exact ⟨howned, by simp [FrameQueue.forLocal, hlocal], by simp [FrameQueue.forLocal]⟩
    . next hremote =>
      exact ⟨howned, by simp [FrameQueue.forRemote, hremote], by simp [FrameQueue.forRemote]⟩

variable [Inhabited β]

theorem log_step (coder : Coder β) (p : Party β) (m : Move β)
    : (p.step coder m).log = p.log ++ p.observed coder m := rfl

theorem Backs.step (h : p.Backs o port frame buttons) (coder : Coder β) (m : Move β)
    : (p.step coder m).Backs o port frame buttons := by
  rcases h with ⟨x, g, hx, hport, hframe, hlog⟩
  rcases remains_step coder m hx with ⟨x', hx', hsame⟩
  refine ⟨x', g, hx', ?_, ?_, ?_⟩
  . rw [hsame.seat.localPorts]
    exact hport
  . rw [hsame.emulator]
    exact hframe
  . rw [log_step]
    exact List.mem_append_left _ hlog

theorem Sends.step {key : KeyState} (h : p.Sends coder o key) (m : Move β)
    : (p.step coder m).Sends coder o key := by
  rcases h with ⟨buttons, hdecode, hbacks⟩
  exact ⟨buttons, hdecode, hbacks.step coder m⟩

theorem Owned.step {delay : Int32} (hsound : p.Sound coder) (h : p.Owned port delay) (m : Move β)
    : (p.step coder m).Owned port delay := by
  rcases h with ⟨id, ports, hclaim, hport⟩
  exact ⟨id, ports, claim?_served hsound.seated hsound.announces m hclaim, hport⟩

theorem Feeds.step {localPorts : PortSet} {q : FrameQueue β} (hsound : p.Sound coder)
    (h : p.Feeds localPorts port q) (m : Move β) : (p.step coder m).Feeds localPorts port q where
  owned := h.owned.step hsound m
  delay := h.delay
  backed frame buttons hget := by
    rcases h.backed frame buttons hget with ⟨o, hbacks⟩
    exact ⟨o, hbacks.step coder m⟩

theorem dues_cases (hsound : p.Sound coder) {h : Nat} {x' : Player β}
    (hx' : (p.step coder m).players[h]? = some x') {e : IncomingEvent}
    (he : e ∈ x'.dues p.server (p.operation? m))
    : (e.start = none ∧ e.keys = []) ∨
        (∃ c, p.server.lobby.console? p.console = some c ∧ e = c.startEvent) ∨
        ∃ h' x ev, p.players[h']? = some x ∧ ev ∈ x.outbox ∧ h' ≠ h ∧ e = { keys := ev.keys } := by
  have hseated := seated_step coder hsound.seated hsound.announces m
  unfold Player.dues at he
  split at he
  . next i op hi hop =>
    have hserver : (p.step coder m).server = p.server.step op := served_of_operation? hop
    cases Server.carries_of_due hsound.seated.consistent he with
    | nothing hstart hkeys => exact Or.inl ⟨hstart, hkeys⟩
    | @start b c c' hb hc _ _ _ =>
      have hb' := Server.boundTo_step hsound.seated.consistent hb op
      have := hseated.bound h x' i b hx' hi (hserver ▸ hb')
      rw [this] at hc
      exact Or.inr (Or.inl ⟨c, hc, rfl⟩)
    | @keys j ev sender b hreceive hsender hb hconsole hne =>
      subst hreceive
      have hown := hseated.bound h x' i b hx' hi (hserver ▸ hb)
      cases operates_of_operation? hop with
      | @transmit h' _ x _ rest hx hj hrest =>
        refine Or.inr (Or.inr ⟨h', x, ev, hx, by simp [hrest], ?_, rfl⟩)
        -- Keys are not relayed to the client that has sent them, and the streams belong to the players
        -- who have opened them.
        rintro rfl
        have hserved := seated_served hsound.seated hsound.announces (.transmit h')
        have hself := hserved.bound h' x j sender hx hj (served_of_operation? hop ▸ hsender)
        rcases remains_step coder (.transmit h') hx with ⟨y, hy, hsame⟩
        rw [hx', Option.some.injEq] at hy
        apply hne
        rw [hown, hself, hy, hsame.seat.clientId]
      | serve hpermits =>
        -- Nobody but a player transmits on a stream of this console.
        have hbound : (p.server.receive j ev).boundTo j = some sender := hsender
        unfold permits at hpermits
        dsimp at hpermits
        rw [Bool.and_eq_true, hbound, Option.all_some, decide_eq_true_eq] at hpermits
        apply absurd _ hpermits.2
        rw [← hconsole, hown]
        rfl
  . simp at he

theorem layout_step (hsound : p.Sound coder) {h : Nat} {x' : Player β}
    (hx' : (p.step coder m).players[h]? = some x') {e : IncomingEvent}
    (he : e ∈ x'.flow (p.step coder m).server) {start : StartGame} (hstart : e.start = some start)
    {connected : ConnectedPort} (hmem : connected ∈ start.ports)
    : (p.step coder m).Owned (Port.ofNumber connected.port) connected.delayFrames := by
  apply Owned.step hsound
  rcases flow_step hsound.seated hx' with ⟨x, hx, _, hflow⟩ | ⟨_, hnil⟩
  . cases List.mem_append.1 (hflow.subset he) with
    | inl he => exact hsound.layout h x hx e he start hstart connected hmem
    | inr he =>
      rcases dues_cases hsound hx' he with ⟨hnone, _⟩ | ⟨c, hc, rfl⟩ | ⟨_, _, _, _, _, _, rfl⟩
      . simp [hnone] at hstart
      . exact owned_of_mem_startEvent hsound.seated hc hstart hmem
      . simp at hstart
  . simp [hnil] at he

theorem relayed_step (hsound : p.Sound coder) {h : Nat} {x' : Player β}
    (hx' : (p.step coder m).players[h]? = some x') {e : IncomingEvent}
    (he : e ∈ x'.flow (p.step coder m).server) {key : KeyState} (hkey : key ∈ e.keys)
    : ∃ o, o ≠ h ∧ (p.step coder m).Sends coder o key := by
  suffices hsends : ∃ o, o ≠ h ∧ p.Sends coder o key by
    rcases hsends with ⟨o, hne, hsends⟩
    exact ⟨o, hne, hsends.step m⟩
  rcases flow_step hsound.seated hx' with ⟨x, hx, _, hflow⟩ | ⟨_, hnil⟩
  . cases List.mem_append.1 (hflow.subset he) with
    | inl he => exact hsound.relayed h x hx e he key hkey
    | inr he =>
      rcases dues_cases hsound hx' he with ⟨_, hnone⟩ | ⟨c, _, rfl⟩ | ⟨o, y, ev, hy, hev, hne, rfl⟩
      . simp [hnone] at hkey
      . simp [Console.startEvent] at hkey
      . exact ⟨o, hne, hsound.sent o y hy ev hev key hkey⟩
  . simp [hnil] at he

theorem sent_step (hcoder : coder.Lawful) (hsound : p.Sound coder) {h : Nat} {x' : Player β}
    (hx' : (p.step coder m).players[h]? = some x') {e : OutgoingEvent} (he : e ∈ x'.outbox)
    {key : KeyState} (hkey : key ∈ e.keys) : (p.step coder m).Sends coder h key := by
  cases yields_step hx' with
  | rest hx _ => exact (hsound.sent h x' hx e he key hkey).step m
  | seat _ _ hnew =>
    rw [(newcomer_step hsound.seated hnew).outbox] at he
    simp at he
  | @move x _ hx hmover hacts =>
    rcases hacts.outbox he with he | rfl | ⟨_, updates, rfl, hobs, hsent⟩
    . exact (hsound.sent h x hx e he key hkey).step m
    . simp [Game.readyEvent] at hkey
    . rcases Game.put_sent hsent with ⟨keys, hkeys, rfl⟩
      rcases Game.mem_storeUpdates hcoder hkeys hkey with ⟨u, hu, hreports⟩
      rcases hreports.frame with ⟨q, hq, hframe⟩
      have hdelay := (hsound.queues h x hx _ q hq).eq_delay hsound.seated hx hreports.owned
      refine ⟨u.buttons, hreports.buttons, x', u.frame, hx', ?_, ?_, ?_⟩
      . rw [hreports.port, hacts.remains.seat.localPorts]
        exact hreports.owned
      . rw [hframe, hacts.remains.emulator, hdelay]
      . rw [log_step, hobs, hreports.port]
        exact List.mem_append_right _ (List.mem_map_of_mem hu)

theorem Feeds.get {localPorts : PortSet} {q q' : FrameQueue β} (h : p.Feeds localPorts port q)
    (hget : q.get frame = .ok (buttons, q')) : p.Feeds localPorts port q' := by
  rcases FrameQueue.get_eq_ok_iff.1 hget with ⟨_, ⟨_, _, rfl⟩ | ⟨_, _, rfl⟩⟩
  . exact ⟨h.owned, h.delay, h.backed⟩
  . refine ⟨h.owned, h.delay, ?_⟩
    intro frame' buttons' hget
    dsimp at hget
    rw [SortedMap.get?_erase] at hget
    split at hget
    . simp at hget
    . exact h.backed frame' buttons' hget

theorem FeedsAll.step {localPorts : PortSet} {queues : Queues β} (hsound : p.Sound coder)
    (h : p.FeedsAll localPorts queues) (m : Move β)
    : (p.step coder m).FeedsAll localPorts queues :=
  fun port q hq => (h port q hq).step hsound m

theorem queues_step (hsound : p.Sound coder) {h : Nat} {x' : Player β}
    (hx' : (p.step coder m).players[h]? = some x')
    : (p.step coder m).FeedsAll x'.game.localPorts x'.game.queues := by
  cases yields_step hx' with
  | rest hx _ => exact (hsound.queues h x' hx).step hsound m
  | seat _ _ hnew =>
    intro port q hq
    rw [(newcomer_step hsound.seated hnew).queues] at hq
    simp at hq
  | @move x _ hx hmover hacts =>
    have hsame := (hsound.queues h x hx).step hsound m
    have hremains := hacts.remains
    rw [hremains.seat.localPorts]
    generalize hobs : p.observed coder m = obs at hacts
    cases hacts with
    | @await h' o ho =>
      rcases (Game.awaitStart?_cases ho).2.2 with ⟨heq, _⟩ | ⟨e, heq, hq | ⟨start, hstart, hq⟩⟩
      . exact heq ▸ hsame
      . exact hq ▸ hsame
      . rcases hq with hnil | hconnects
        . intro port q hq
          rw [hnil] at hq
          simp at hq
        . have he : e ∈ x.flow p.server := by
            unfold Player.flow
            simp [heq]
          exact (feeds_connected hsound hx he hstart hconnects).step hsound _
    | @put h' updates howns =>
      have hseated := seated_step coder hsound.seated hsound.announces (.put h' updates)
      rw [Game.put_game]
      dsimp
      -- Induction on the updates, each of which is in the log by the end of the move.
      have hstored := Game.storeUpdates_induction coder x.game.consoleId x.game.localPorts updates
        (P := fun queues done => (∀ u ∈ done, .stored h u ∈ (p.step coder (.put h' updates)).log) →
          (p.step coder (.put h' updates)).FeedsAll x.game.localPorts queues)
        ?_ x.game.queues [] (fun _ => hsame)
      . apply hstored
        intro u hu
        rw [log_step, hobs]
        exact List.mem_append_right _ (List.mem_map_of_mem hu)
      . intro queues done u q q' hP hmem hq hput hdone
        have ih := hP fun u' hu' => hdone u' (List.mem_append_left _ hu')
        have hfeeds := ih u.port q hq
        apply ih.insert
        apply hfeeds.put hput
        intro y hy
        have hlocal := howns u hmem
        rw [← hremains.seat.localPorts] at hfeeds hlocal
        refine ⟨h, _, u.frame, hx', hlocal, ?_, hdone u (by simp)⟩
        rw [hy, hfeeds.eq_delay hseated hx' hlocal]
    | @get h' port frame o ho =>
      rcases Game.got_get? ho with ⟨queues, hgot, _⟩
      have hpumped := hsound.feeds_pumped hx hgot.stores
      rcases hgot.result with ⟨_, _, heq⟩ | ⟨v, q, q', _, hq, hget, heq⟩
      . exact heq ▸ hpumped.step hsound _
      . apply FeedsAll.step hsound
        rw [heq]
        exact hpumped.insert ((hpumped port q hq).get hget)
    | _ => exact hsame

theorem sound_step (hcoder : coder.Lawful) (hsound : p.Sound coder) (m : Move β)
    : (p.step coder m).Sound coder where
  seated := seated_step coder hsound.seated hsound.announces m
  announces := announces_step hsound.seated hsound.announces m
  sent _ _ hx _ he _ hkey := sent_step hcoder hsound hx he hkey
  relayed _ _ hx _ he _ hkey := relayed_step hsound hx he hkey
  layout _ _ hx _ he _ hstart _ hmem := layout_step hsound hx he hstart hmem
  queues _ _ hx := queues_step hsound hx

/--
Buttons of a port at a frame are the default ones, since the frame is within the delay of the client that
owns the port, or the player who is this client has stored them before the `t`-th observation.
-/
def Originates (p : Party β) (t : Nat) (port : Port) (frame : Int32) (buttons : β) : Prop :=
  ∃ id ports delay, p.server.claim? p.console id = some (ports, delay) ∧
    ports.contains port = true ∧
      ((frame < delay ∧ buttons = default) ∨
        ∃ o x g, p.players[o]? = some x ∧ x.game.clientId = id ∧
          frame.toInt = g.toInt + delay.toInt ∧ .stored o ⟨port, g, buttons⟩ ∈ p.log.take t)

theorem Originates.mono {t t' : Nat} (h : p.Originates t port frame buttons) (hle : t ≤ t')
    : p.Originates t' port frame buttons := by
  rcases h with ⟨id, ports, delay, hclaim, hport, h⟩
  refine ⟨id, ports, delay, hclaim, hport, ?_⟩
  rcases h with hdefault | ⟨o, x, g, hx, hid, hframe, hlog⟩
  . exact Or.inl hdefault
  . exact Or.inr ⟨o, x, g, hx, hid, hframe, List.take_subset_take_left p.log hle hlog⟩

theorem Originates.step (hsound : p.Sound coder) {t : Nat}
    (h : p.Originates t port frame buttons) (m : Move β)
    : (p.step coder m).Originates t port frame buttons := by
  rcases h with ⟨id, ports, delay, hclaim, hport, h⟩
  refine ⟨id, ports, delay, claim?_served hsound.seated hsound.announces m hclaim, hport, ?_⟩
  rcases h with hdefault | ⟨o, x, g, hx, hid, hframe, hlog⟩
  . exact Or.inl hdefault
  . rcases remains_step coder m hx with ⟨x', hx', hsame⟩
    refine Or.inr ⟨o, x', g, hx', hsame.seat.clientId ▸ hid, hframe, ?_⟩
    rw [log_step, List.take_append]
    exact List.mem_append_left _ hlog

theorem originates_get (hsound : p.Sound coder) {h : Nat} {x : Player β}
    (hx : p.players[h]? = some x) {o : Outcome β GetError β}
    (ho : x.game.get? coder port frame = some o) (hresult : o.result = .ok buttons)
    : p.Originates p.log.length port frame buttons := by
  rcases Game.got_get? ho with ⟨queues, hgot, _⟩
  rcases hgot.result with ⟨_, herror, _⟩ | ⟨v, q, q', hok, hq, hget, _⟩
  . simp [herror] at hresult
  . rw [hok, Except.ok.injEq] at hresult
    subst hresult
    have hfeeds := hsound.feeds_pumped hx hgot.stores port q hq
    -- The queue gives the default within its delay, else something that the owner has stored.
    rcases FrameQueue.get_eq_ok_iff.1 hget with ⟨_, ⟨hinitial, hdefault, _⟩ | ⟨_, hstored, _⟩⟩
    . rcases hfeeds.owned with ⟨id, ports, hclaim, hport⟩
      exact ⟨id, ports, q.initial, hclaim, hport, Or.inl ⟨hinitial, hdefault⟩⟩
    . rcases hfeeds.backed frame v hstored with ⟨a, y, g, hy, hport, hframe, hlog⟩
      refine ⟨y.game.clientId, y.game.localPorts, y.emulator.delay, hsound.seated.claim a y hy,
        hport, Or.inr ⟨a, y, g, hy, rfl, hframe, ?_⟩⟩
      rw [List.take_length]
      exact hlog

/-- Whatever was obtained comes from the owner of the port. -/
def Sourced (p : Party β) : Prop :=
  ∀ (t h : Nat) (port : Port) (frame : Int32) (buttons : β),
    p.log[t]? = some (.obtained h port frame buttons) → p.Originates t port frame buttons

theorem sourced_step (hsound : p.Sound coder) (hsourced : p.Sourced) (m : Move β)
    : (p.step coder m).Sourced := by
  intro t h port frame buttons ht
  rw [log_step, List.getElem?_append] at ht
  split at ht
  . exact (hsourced t h port frame buttons ht).step hsound m
  . next hge =>
    have hmem := List.mem_of_getElem? ht
    unfold observed at hmem
    split at hmem
    . simp at hmem
    . next a x hmover =>
      have hx := (mover?_eq_some_iff.1 hmover).2
      have hacts := Player.acts_act coder p.server a x m
      generalize x.observed coder a m = obs at hmem hacts
      generalize x.act coder p.server m = x' at hacts
      cases hacts with
      | put howns => simp at hmem
      | @get h' port' frame' o ho =>
        rw [Option.mem_toList, Option.map_eq_some_iff] at hmem
        rcases hmem with ⟨v, hv, heq⟩
        rw [Observation.obtained.injEq] at heq
        rcases heq with ⟨_, rfl, rfl, rfl⟩
        have hresult : o.result = .ok v := by
          cases hr : o.result with
          | error cause => simp [hr, Except.toOption] at hv
          | ok w =>
            simp only [hr, Except.toOption, Option.some.injEq] at hv
            rw [hv]
        have horigin := originates_get hsound hx ho hresult
        exact (horigin.mono (Nat.not_lt.1 hge)).step hsound _
      | _ => simp at hmem

end Step

end Party
end PadRelay
