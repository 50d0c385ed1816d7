import PadRelay.Proofs.Party.Moves

/-!
This module contains the bookkeeping of parties: every player is a client of the console of the party
and owns what the server says it owns, and the streams of that console are the streams of the players.
-/

namespace PadRelay

variable {β : Type}

/-- The players of a party are clients of the console at position `k`. -/
structure Seated (s : Server) (k : Nat) (players : List (Player β)) : Prop where
  consistent : s.Consistent
  exclusive : ∀ j c, s.lobby.console? j = some c → c.Exclusive
  claim : ∀ (h : Nat) (x : Player β), players[h]? = some x →
    s.claim? k x.game.clientId = some (x.game.localPorts, x.emulator.delay)
  consoleId : ∀ (h : Nat) (x : Player β), players[h]? = some x →
    s.consoleId? k = some x.game.consoleId
  distinct : ∀ (h h' : Nat) (x x' : Player β), players[h]? = some x → players[h']? = some x' →
    x.game.clientId = x'.game.clientId → h = h'
  elsewhere : ∀ (h : Nat) (x : Player β) (j : Nat), players[h]? = some x → j ≠ k →
    s.claim? j x.game.clientId = none
  opened : ∀ (h : Nat) (x : Player β) (i : Nat), players[h]? = some x → x.stream = some i →
    i < s.streams.length
  bound : ∀ (h : Nat) (x : Player β) (i : Nat) (b : Binding), players[h]? = some x →
    x.stream = some i → s.boundTo i = some b → b = ⟨k, x.game.clientId⟩
  separate : ∀ (h h' : Nat) (x x' : Player β) (i : Nat), players[h]? = some x →
    players[h']? = some x' → x.stream = some i → x'.stream = some i → h = h'
  own : ∀ (i : Nat) (b : Binding), s.boundTo i = some b → b.console = k →
    ∃ (h : Nat) (x : Player β), players[h]? = some x ∧ x.stream = some i

theorem Server.claim?_of_fresh {s : Server} (h : s.fresh = true) (k : Nat)
    : s.claim? k ⟨s.lobby.clientIds.next⟩ = none := by
  unfold claim? Console.claim?
  cases hc : s.lobby.console? k with
  | none => rfl
  | some c =>
    rcases Lobby.console?_eq_some_iff.1 hc with ⟨e, he, rfl⟩
    unfold fresh at h
    rw [List.all_eq_true] at h
    have := h e (List.mem_of_getElem? he)
    simp only [SortedMap.contains, Bool.not_eq_true', Option.isSome_eq_false_iff,
      Option.isNone_iff_eq_none] at this
    simp [this]

theorem Server.claim?_step_of_fresh {s : Server} (h : s.Consistent) {op : Operation}
    (hfresh : s.served op = true → s.fresh = true) {k : Nat} {id : ClientId}
    {x : PortSet × Int32} (hx : s.claim? k id = some x) : (s.step op).claim? k id = some x := by
  rw [claim?_step_of_ne h, hx]
  intro hop heq
  rw [heq, claim?_of_fresh (hfresh hop)] at hx
  simp at hx

/-- What an operation may not do in a party: reuse an identifier, or take a stream away. -/
structure Server.Admits (s : Server) (k : Nat) (players : List (Player β)) (op : Operation) :
    Prop where
  fresh : s.served op = true → s.fresh = true
  bound : ∀ i b, (s.step op).boundTo i = some b → s.boundTo i = some b ∨
    (b.console ≠ k ∧ ∀ (h : Nat) (x : Player β), players[h]? = some x → x.stream ≠ some i) ∨
    ∃ (h : Nat) (x : Player β), players[h]? = some x ∧ x.stream = some i ∧
      b = ⟨k, x.game.clientId⟩

theorem Seated.step {s : Server} {k : Nat} {players : List (Player β)} (h : Seated s k players)
    {op : Server.Operation} (hop : s.Admits k players op) : Seated (s.step op) k players where
  consistent := Server.consistent_step h.consistent op
  exclusive _ _ hc := Server.exclusive_step h.consistent h.exclusive hc
  claim i x hx := Server.claim?_step_of_fresh h.consistent hop.fresh (h.claim i x hx)
  consoleId i x hx := Server.consoleId?_step h.consistent op (h.consoleId i x hx)
  distinct := h.distinct
  elsewhere i x j hx hj := by
    rw [Server.claim?_step_of_ne h.consistent, h.elsewhere i x j hx hj]
    intro hserved heq
    have := h.claim i x hx
    rw [heq, Server.claim?_of_fresh (hop.fresh hserved)] at this
    simp at this
  opened i x j hx hj := by
    have := h.opened i x j hx hj
    have := Server.length_streams_step s op
    omega
  bound i x j b hx hj hb := by
    rcases hop.bound j b hb with hb | ⟨_, hnone⟩ | ⟨i', x', hx', hj', rfl⟩
    . exact h.bound i x j b hx hj hb
    . exact absurd hj (hnone i x hx)
    . have := h.separate i i' x x' j hx hx' hj hj'
      rw [this, hx', Option.some.injEq] at hx
      rw [hx]
  separate := h.separate
  own j b hb hk := by
    rcases hop.bound j b hb with hb | ⟨hne, _⟩ | ⟨i, x, hx, hj, _⟩
    . exact h.own j b hb hk
    . exact absurd hk hne
    . exact ⟨i, x, hx, hj⟩

/-- The stream of a player stays, or the player gets one that nobody has used. -/
def Assigns (s : Server) (players : List (Player β)) (x x' : Player β) : Prop :=
  x'.stream = x.stream ∨
    ∃ i, x.stream = none ∧ x'.stream = some i ∧ i < s.streams.length ∧ s.boundTo i = none ∧
      ∀ (h : Nat) (y : Player β), players[h]? = some y → y.stream ≠ some i

theorem Seated.modify {s : Server} {k : Nat} {players : List (Player β)} (h : Seated s k players)
    {a : Nat} {f : Player β → Player β}
    (hf : ∀ x : Player β, players[a]? = some x → x.Remains (f x) ∧ Assigns s players x (f x))
    : Seated s k (players.modify a f) := by
  -- Who sits at a place afterwards is the one who sat there before, perhaps with a stream now.
  have hback : ∀ {i : Nat} {x' : Player β}, (players.modify a f)[i]? = some x' →
      ∃ x, players[i]? = some x ∧ x.Remains x' ∧ Assigns s players x x' := by
    intro i x' hx'
    rcases getElem?_modify_cases hx' with ⟨x, hx, ⟨rfl, rfl⟩ | ⟨_, rfl⟩⟩
    . exact ⟨x, hx, hf x hx⟩
    . exact ⟨x', hx, .refl x', Or.inl rfl⟩
  constructor
  . exact h.consistent
  . exact h.exclusive
  . intro i x' hx'
    rcases hback hx' with ⟨x, hx, hsame, _⟩
    rw [hsame.seat.clientId, hsame.seat.localPorts, hsame.emulator]
    exact h.claim i x hx
  . intro i x' hx'
    rcases hback hx' with ⟨x, hx, hsame, _⟩
    rw [hsame.seat.consoleId]
    exact h.consoleId i x hx
  . intro i j x' y' hx' hy' heq
    rcases hback hx' with ⟨x, hx, hsame, _⟩
    rcases hback hy' with ⟨y, hy, hsame', _⟩
    rw [hsame.seat.clientId, hsame'.seat.clientId] at heq
    exact h.distinct i j x y hx hy heq
  . intro i x' j hx' hj
    rcases hback hx' with ⟨x, hx, hsame, _⟩
    rw [hsame.seat.clientId]
    exact h.elsewhere i x j hx hj
  . intro i x' j hx' hj
    rcases hback hx' with ⟨x, hx, _, hassign⟩
    rcases hassign with heq | ⟨j', _, heq, hlt, _⟩
    . exact h.opened i x j hx (heq ▸ hj)
    . rw [hj, Option.some.injEq] at heq
      rw [heq]
      exact hlt
  . intro i x' j b hx' hj hb
    rcases hback hx' with ⟨x, hx, hsame, hassign⟩
    rw [hsame.seat.clientId]
    rcases hassign with heq | ⟨j', _, heq, _, hfree, _⟩
    . exact h.bound i x j b hx (heq ▸ hj) hb
    . rw [hj, Option.some.injEq] at heq
      rw [heq, hfree] at hb
      simp at hb
  . intro i j x' y' n hx' hy' hi hj
    rcases getElem?_modify_cases hx' with ⟨x, hx, hx₁⟩
    rcases getElem?_modify_cases hy' with ⟨y, hy, hy₁⟩
    rcases hx₁ with ⟨rfl, rfl⟩ | ⟨_, rfl⟩
    . rcases hy₁ with ⟨rfl, _⟩ | ⟨_, rfl⟩
      . rfl
      . rcases (hf x hx).2 with heq | ⟨n', _, heq, _, _, hunused⟩
        . exact h.separate a j x y' n hx hy (heq ▸ hi) hj
        . rw [hi, Option.some.injEq] at heq
          exact absurd (heq ▸ hj) (hunused j y' hy)
    . rcases hy₁ with ⟨rfl, rfl⟩ | ⟨_, rfl⟩
      . rcases (hf y hy).2 with heq | ⟨n', _, heq, _, _, hunused⟩
        . exact h.separate i a x' y n hx hy hi (heq ▸ hj)
        . rw [hj, Option.some.injEq] at heq
          exact absurd (heq ▸ hi) (hunused i x' hx)
      . exact h.separate i j x' y' n hx hy hi hj
  . intro i b hb hk
    rcases h.own i b hb hk with ⟨j, x, hx, hi⟩
    by_cases heq : a = j
    . subst heq
      refine ⟨a, f x, by simp [hx], ?_⟩
      rcases (hf x hx).2 with heq | ⟨_, hnone, _⟩
      . rw [heq, hi]
      . simp [hnone] at hi
    . exact ⟨j, x, by simp [hx, heq], hi⟩

/-- What a player is like who has just taken a seat. -/
structure Newcomer (s : Server) (k : Nat) (players : List (Player β)) (x : Player β) : Prop where
  claim : s.claim? k x.game.clientId = some (x.game.localPorts, x.emulator.delay)
  consoleId : s.consoleId? k = some x.game.consoleId
  elsewhere : ∀ j, j ≠ k → s.claim? j x.game.clientId = none
  distinct : ∀ (h : Nat) (y : Player β), players[h]? = some y → y.game.clientId ≠ x.game.clientId
  stream : x.stream = none
  outbox : x.outbox = []
  inbound : x.game.inbound = none
  queues : x.game.queues = ∅
  status : x.game.status = .notYetStarted

theorem Seated.append {s : Server} {k : Nat} {players : List (Player β)} (h : Seated s k players)
    {o : Option (Player β)} (ho : ∀ x, o = some x → Newcomer s k players x)
    : Seated s k (players ++ o.toList) where
  consistent := h.consistent
  exclusive := h.exclusive
  claim i y hy := by
    rcases getElem?_append_toList_cases hy with hy | ⟨_, hy⟩
    . exact h.claim i y hy
    . exact (ho y hy).claim
  consoleId i y hy := by
    rcases getElem?_append_toList_cases hy with hy | ⟨_, hy⟩
    . exact h.consoleId i y hy
    . exact (ho y hy).consoleId
  distinct i j y z hy hz heq := by
    rcases getElem?_append_toList_cases hy with hy | ⟨hi, hy⟩
    . rcases getElem?_append_toList_cases hz with hz | ⟨_, hz⟩
      . exact h.distinct i j y z hy hz heq
      . exact absurd heq ((ho z hz).distinct i y hy)
    . rcases getElem?_append_toList_cases hz with hz | ⟨hj, _⟩
      . exact absurd heq.symm ((ho y hy).distinct j z hz)
      . rw [hi, hj]
  elsewhere i y j hy hj := by
    rcases getElem?_append_toList_cases hy with hy | ⟨_, hy⟩
    . exact h.elsewhere i y j hy hj
    . exact (ho y hy).elsewhere j hj
  opened i y j hy hj := by
    rcases getElem?_append_toList_cases hy with hy | ⟨_, hy⟩
    . exact h.opened i y j hy hj
    . simp [(ho y hy).stream] at hj
  bound i y j b hy hj hb := by
    rcases getElem?_append_toList_cases hy with hy | ⟨_, hy⟩
    . exact h.bound i y j b hy hj hb
    . simp [(ho y hy).stream] at hj
  separate i j y z a hy hz hi hj := by
    rcases getElem?_append_toList_cases hy with hy | ⟨_, hy⟩
    . rcases getElem?_append_toList_cases hz with hz | ⟨_, hz⟩
      . exact h.separate i j y z a hy hz hi hj
      . simp [(ho z hz).stream] at hj
    . simp [(ho y hy).stream] at hi
  own i b hb hk := by
    rcases h.own i b hb hk with ⟨j, y, hy, hi⟩
    refine ⟨j, y, ?_, hi⟩
    rw [List.getElem?_append_left (List.getElem?_eq_some_iff.1 hy).1]
    exact hy

theorem Player.seated?_eq_some {e : Emulator} {answer : PlugResponse} {x : Player β}
    (h : seated? e answer = some x)
    : Enumeration.ofNumber answer.status = PlugStatus.success ∧
        answer.consoleId = e.consoleId.value ∧ x.emulator.delay = e.delay ∧
        x.game.consoleId = e.consoleId ∧ x.game.clientId = ⟨answer.clientId⟩ ∧
        x.game.localPorts = PortSet.ofList (answer.ports.map Port.ofNumber) ∧
        x.stream = none ∧ x.outbox = [] ∧ x.game.inbound = none ∧ x.game.queues = ∅ ∧
        x.game.status = .notYetStarted := by
  unfold seated? at h
  split at h
  . next e' hplugged =>
    unfold Emulator.plugged at hplugged
    dsimp at hplugged
    split at hplugged
    . simp at hplugged
    . next hconsole =>
      simp only [Prod.mk.injEq, Except.ok.injEq] at hplugged
      rcases hplugged with ⟨hstatus, rfl⟩
      rw [Classical.not_not] at hconsole
      unfold Emulator.newGame at h
      split at h
      . next game hgame =>
        rw [Option.some.injEq] at h
        subst h
        split at hgame
        . split at hgame
          . simp at hgame
          . next game' hcreate =>
            rw [Except.ok.injEq] at hgame
            subst hgame
            unfold Game.create? at hcreate
            dsimp at hcreate
            repeat' split at hcreate
            all_goals simp at hcreate
            rw [← hcreate]
            exact ⟨hstatus, hconsole, rfl, rfl, rfl, rfl, rfl, rfl, rfl, rfl, rfl⟩
        . simp at hgame
      . simp at h
  . simp at h

theorem Server.served_of_ofNumber {s : Server} {request : PlugRequest}
    (h : Enumeration.ofNumber (s.plugController request).1.status = PlugStatus.success)
    : s.served (.plugController request) = true := by
  by_cases heq : (s.plugController request).1.status = Enumeration.number PlugStatus.success
  . simp [served, heq]
  . unfold Enumeration.ofNumber Enumeration.ofNumber? at h
    cases hfind : Enumeration.members.find? (fun a : PlugStatus =>
        Enumeration.number a == (s.plugController request).1.status) with
    | none =>
      rw [hfind] at h
      exact absurd h (by decide)
    | some a =>
      rw [hfind, Option.getD_some] at h
      have := List.find?_some hfind
      rw [h, beq_iff_eq] at this
      exact absurd this.symm heq

theorem ofNumber_ports (ports : List Port) : (ports.map Port.number).map Port.ofNumber = ports := by
  rw [List.map_map]
  conv => rhs; rw [← List.map_id ports]
  apply List.map_congr_left
  intro p _
  exact Port.ofNumber_number p

theorem ofList_ports (ports : PortSet)
    : PortSet.ofList ((ports.toList.map Port.number).map Port.ofNumber) = ports := by
  apply PortSet.ext_contains
  intro p
  rw [ofNumber_ports, Bool.eq_iff_iff, PortSet.contains_ofList, PortSet.mem_toList]

theorem plugRequest_eq_ok {e : Emulator} {ports : List Port} {request : PlugRequest}
    (h : e.plugRequest ports = .ok request)
    : request.consoleId = e.consoleId.value ∧ request.delayFrames = e.delay := by
  unfold Emulator.plugRequest at h
  split at h
  . simp at h
  . rw [Except.ok.injEq] at h
    rw [← h]
    exact ⟨rfl, rfl⟩

theorem Seated.newcomer {s : Server} {k : Nat} {players : List (Player β)}
    (h : Seated s k players) {e : Emulator} {ports : List Port} {request : PlugRequest}
    (hrequest : e.plugRequest ports = .ok request) (hfresh : s.fresh = true)
    (hlookup : (s.lobby.lookup? ⟨request.consoleId⟩).map (·.1) = some k) {x : Player β}
    (hx : Player.seated? e (s.plugController request).1 = some x)
    : Newcomer (s.step (.plugController request)) k players x := by
  rcases Player.seated?_eq_some hx with ⟨hstatus, _, hdelay, hconsole, hclient, hports, hstream,
    houtbox, hinbound, hqueues, hwaiting⟩
  rcases Server.plugs_of_served (Server.served_of_ofNumber hstatus) with
    ⟨k', c, ports', hlookup', hanswer, hplugs⟩
  rw [hlookup', Option.map_some, Option.some.injEq] at hlookup
  dsimp at hlookup
  subst hlookup
  rcases plugRequest_eq_ok hrequest with ⟨hid, hframes⟩
  rw [hanswer] at hclient hports
  dsimp at hclient hports
  rw [ofList_ports] at hports
  constructor
  . rw [hplugs.claim?, hclient, if_pos ⟨rfl, rfl⟩, hports, hdelay, hframes]
  . have hc := Lobby.lookup?_eq_some hlookup'
    rw [hplugs.consoleId?, Server.consoleId?_of_console? hc.1, hconsole, hc.2, hid]
  . intro j hj
    -- The identifier was fresh, so no console knew it before.
    rw [hplugs.claim?, if_neg (fun heq => hj heq.1), hclient]
    exact Server.claim?_of_fresh hfresh j
  . intro i y hy heq
    have := h.claim i y hy
    rw [heq, hclient, Server.claim?_of_fresh hfresh] at this
    simp at this
  . exact hstream
  . exact houtbox
  . exact hinbound
  . exact hqueues
  . exact hwaiting

def Announces (players : List (Player β)) : Prop :=
  ∀ (h : Nat) (x : Player β), players[h]? = some x → ∀ e ∈ x.outbox, ∀ ready,
    e.ready = some ready → ready = ⟨x.game.consoleId.value, x.game.clientId.value⟩

namespace Party

section Operation

variable {p : Party β} {m : Move β} {op : Server.Operation}

theorem request?_eq_some {e : Emulator} {ports : List Port} {request : PlugRequest}
    (h : p.request? e ports = some request)
    : e.plugRequest ports = .ok request ∧ p.server.fresh = true ∧
        (p.server.lobby.lookup? ⟨request.consoleId⟩).map (·.1) = some p.console := by
  unfold request? at h
  split at h
  . simp at h
  . next hrequest =>
    split at h
    . next hif =>
      rw [Option.some.injEq] at h
      subst h
      exact ⟨hrequest, hif⟩
    . simp at h

/-- What a move does at the server, and who does it. -/
inductive Operates (p : Party β) : Move β → Server.Operation → Prop
  | seat {e : Emulator} {ports : List Port} {request : PlugRequest} :
    p.request? e ports = some request → Operates p (.seat e ports) (.plugController request)
  | ready {h : Nat} {x : Player β} :
    p.players[h]? = some x → x.stream = none → Operates p (.ready h) .openStream
  | transmit {h i : Nat} {x : Player β} {e : OutgoingEvent} {rest : List OutgoingEvent} :
    p.players[h]? = some x → x.stream = some i → x.outbox = e :: rest →
    Operates p (.transmit h) (.receive i e)
  | deliver {h i n : Nat} {x : Player β} :
    p.players[h]? = some x → x.stream = some i → Operates p (.deliver h n) (.take i n)
  | serve {op : Server.Operation} : p.permits op = true → Operates p (.serve op) op

theorem operates_of_operation? (hop : p.operation? m = some op) : p.Operates m op := by
  have hmover : ∀ {m : Move β}, (p.mover? m).bind (fun r => r.2.operation? m) = some op →
      ∃ h x, m.actor? = some h ∧ p.players[h]? = some x ∧ x.operation? m = some op := by
    intro m hop
    rw [Option.bind_eq_some_iff] at hop
    rcases hop with ⟨⟨h, x⟩, hm, hop⟩
    rw [mover?_eq_some_iff] at hm
    exact ⟨h, x, hm.1, hm.2, hop⟩
  unfold operation? at hop
  split at hop
  . rw [Option.map_eq_some_iff] at hop
    rcases hop with ⟨request, hrequest, rfl⟩
    exact .seat hrequest
  . split at hop
    . next hpermits =>
      rw [Option.some.injEq] at hop
      subst hop
      exact .serve hpermits
    . simp at hop
  . rcases hmover hop with ⟨h, x, hactor, hx, hop⟩
    unfold Player.operation? at hop
    split at hop
    . split at hop
      . next hnone =>
        rw [Option.some.injEq] at hop
        subst hop
        simp only [Move.actor?, Option.some.injEq] at hactor
        exact .ready (hactor ▸ hx) hnone
      . simp at hop
    . rw [Option.map_eq_some_iff] at hop
      rcases hop with ⟨⟨i, e⟩, hout, rfl⟩
      unfold Player.outgoing? at hout
      split at hout
      . next hi hrest =>
        rw [Option.some.injEq, Prod.mk.injEq] at hout
        rcases hout with ⟨rfl, rfl⟩
        simp only [Move.actor?, Option.some.injEq] at hactor
        exact .transmit (hactor ▸ hx) hi hrest
      . simp at hout
    . rw [Option.map_eq_some_iff] at hop
      rcases hop with ⟨i, hi, rfl⟩
      simp only [Move.actor?, Option.some.injEq] at hactor
      exact .deliver (hactor ▸ hx) hi
    . simp at hop

theorem admits_of_operates (hseated : Seated p.server p.console p.players)
    (hann : Announces p.players) (hop : p.Operates m op)
    : p.server.Admits p.console p.players op := by
  have hunserved : ∀ {op : Server.Operation}, (∀ request, op ≠ .plugController request) →
      p.server.served op = true → p.server.fresh = true := by
    intro op hop hserved
    cases op with
    | plugController request => exact absurd rfl (hop request)
    | _ => simp [Server.served] at hserved
  have hbound : ∀ {op : Server.Operation}, (∀ i e, op ≠ .receive i e) → ∀ i b,
      (p.server.step op).boundTo i = some b → p.server.boundTo i = some b := by
    intro op hop i b hb
    rcases Server.boundTo_step_cases hb with hb | ⟨e, _, _, _, heq, _⟩
    . exact hb
    . exact absurd heq (hop i e)
  cases hop with
  | seat hrequest => exact ⟨fun _ => (request?_eq_some hrequest).2.1, fun i b hb =>
      Or.inl (hbound (by simp) i b hb)⟩
  | ready _ _ => exact ⟨hunserved (by simp), fun i b hb => Or.inl (hbound (by simp) i b hb)⟩
  | deliver _ _ => exact ⟨hunserved (by simp), fun i b hb => Or.inl (hbound (by simp) i b hb)⟩
  | @transmit h i x e rest hx hi hrest =>
    refine ⟨hunserved (by simp), ?_⟩
    intro j b hb
    rcases Server.boundTo_step_cases hb with hb | ⟨e', ready, c, m, heq, hready, hlookup, hid, hm⟩
    . exact Or.inl hb
    . right
      right
      rw [Server.Operation.receive.injEq] at heq
      rcases heq with ⟨rfl, rfl⟩
      have hself := hann h x hx e (by simp [hrest]) ready hready
      replace hid : b.clientId = x.game.clientId := by
        rw [hid, hself]
      -- A client of another console has no claim here, so the console is the one of the party.
      have hconsole : b.console = p.console := by
        by_cases heq : b.console = p.console
        . exact heq
        . have hnone := hseated.elsewhere h x b.console hx heq
          rw [Server.claim?_of_console? (Lobby.lookup?_eq_some hlookup).1, ← hid,
            Console.claim?_of_get? hm] at hnone
          simp at hnone
      refine ⟨h, x, hx, hi, ?_⟩
      rw [← hconsole, ← hid]
  | @serve op hpermits =>
    constructor
    . intro hserved
      cases op with
      | plugController request => exact hpermits
      | _ => simp [Server.served] at hserved
    . intro j b hb
      rcases Server.boundTo_step_cases hb with hb' | ⟨e, _, _, _, rfl, _⟩
      . exact Or.inl hb'
      . right
        left
        replace hb : (p.server.receive j e).boundTo j = some b := hb
        unfold permits at hpermits
        dsimp at hpermits
        rw [Bool.and_eq_true, hb, Option.all_some, decide_eq_true_eq, Bool.not_eq_true'] at hpermits
        refine ⟨hpermits.2, ?_⟩
        intro i x hx hi
        have hunused := hpermits.1
        unfold usesStream at hunused
        rw [List.any_eq_false] at hunused
        exact hunused x (List.mem_of_getElem? hx) (by simp [hi])

end Operation

section Step

variable {p : Party β}

theorem newcomer?_eq_some {m : Move β} {x : Player β} (h : p.newcomer? m = some x)
    : ∃ e ports request, m = .seat e ports ∧ p.request? e ports = some request ∧
        Player.seated? e (p.server.plugController request).1 = some x := by
  unfold newcomer? at h
  split at h
  . rw [Option.bind_eq_some_iff] at h
    rcases h with ⟨request, hrequest, h⟩
    exact ⟨_, _, request, rfl, hrequest, h⟩
  . simp at h

theorem newcomer_step (hseated : Seated p.server p.console p.players) {m : Move β} {x : Player β}
    (hx : p.newcomer? m = some x) : Newcomer (p.served m) p.console p.players x := by
  rcases newcomer?_eq_some hx with ⟨e, ports, request, rfl, hrequest, hx⟩
  rcases request?_eq_some hrequest with ⟨hplug, hfresh, hlookup⟩
  have hserved : p.served (.seat e ports) = p.server.step (.plugController request) := by
    simp [served, operation?, hrequest]
  rw [hserved]
  exact hseated.newcomer hplug hfresh hlookup hx

theorem announces_step [Inhabited β] {coder : Coder β}
    (hseated : Seated p.server p.console p.players)
    (hann : Announces p.players) (m : Move β)
    : Announces (p.step coder m).players := by
  intro h x' hx' e he ready hready
  cases yields_step hx' with
  | rest hx _ => exact hann h x' hx e he ready hready
  | @move x _ hx _ hacts =>
    rw [hacts.remains.seat.consoleId, hacts.remains.seat.clientId]
    rcases hacts.outbox he with he | rfl | ⟨_, _, _, _, hsent⟩
    . exact hann h x hx e he ready hready
    . simp only [Game.readyEvent, Option.some.injEq] at hready
      exact hready.symm
    . rcases Game.put_sent hsent with ⟨keys, _, rfl⟩
      simp at hready
  | seat _ _ hnew =>
    rw [(newcomer_step hseated hnew).outbox] at he
    simp at he

theorem seated_served (hseated : Seated p.server p.console p.players)
    (hann : Announces p.players) (m : Move β) : Seated (p.served m) p.console p.players := by
  unfold served
  split
  . exact hseated
  . next op hop => exact hseated.step (admits_of_operates hseated hann (operates_of_operation? hop))

theorem seated_step [Inhabited β] (coder : Coder β)
    (hseated : Seated p.server p.console p.players) (hann : Announces p.players) (m : Move β)
    : Seated (p.step coder m).server (p.step coder m).console (p.step coder m).players := by
  have hserved := seated_served hseated hann m
  show Seated (p.served m) p.console (p.roster coder m)
  unfold roster
  split
  . next a ha =>
    apply hserved.modify
    intro x hx
    have hacts := Player.acts_act coder p.server a x m
    refine ⟨hacts.remains, ?_⟩
    rcases hacts.stream with heq | ⟨a', rfl, hnone, hnew⟩
    . exact Or.inl heq
    . have hmover := mover?_eq_some_iff.2 ⟨ha, hx⟩
      have hopen : p.served (.ready a') = p.server.openStream := by
        simp [served, operation?, hmover, Player.operation?, hnone, Server.step]
      rw [hopen]
      refine Or.inr ⟨p.server.streams.length, hnone, hnew, ?_, ?_, ?_⟩
      . simp [Server.openStream]
      . rw [Server.boundTo_openStream]
        simp [Server.boundTo]
      . intro h y hy heq
        have := hseated.opened h y _ hy heq
        omega
  . next hnone =>
    apply hserved.append
    intro x hnew
    exact newcomer_step hseated hnew

theorem seated_start (testMode : Bool) (limit : Option Nat) (ops : List Server.Operation)
    : Seated ((Server.initial testMode limit).run ops)
        (start (β := β) ((Server.initial testMode limit).run ops)).console
        (start (β := β) ((Server.initial testMode limit).run ops)).players where
  consistent := Server.consistent_run testMode limit ops
  exclusive _ _ hc := Server.exclusive_run testMode limit ops hc
  claim _ _ hx := by simp [start] at hx
  consoleId _ _ hx := by simp [start] at hx
  distinct _ _ _ _ hx := by simp [start] at hx
  elsewhere _ _ _ hx := by simp [start] at hx
  opened _ _ _ hx := by simp [start] at hx
  bound _ _ _ _ hx := by simp [start] at hx
  separate _ _ _ _ _ hx := by simp [start] at hx
  own i b hb hk := by
    rcases (Server.consistent_run testMode limit ops).bound i b hb with ⟨c, _, hc, _⟩
    rw [hk] at hc
    simp [start, Lobby.console?] at hc

end Step

end Party
end PadRelay
