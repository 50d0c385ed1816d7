import PadRelay.Proofs.Game.Joining
import PadRelay.Proofs.Party.Gathering

/-!
This module contains the proof that the handshake of server and players always fits. A game only starts
once every client is a player whose stream belongs to it, so the start event is the first one in every
stream. There it stays until the player waits for it, and nothing in it can be refused.
-/

namespace PadRelay

variable {β : Type}

/-- The first event that a game reads from stream `i`, if it reads any, is `e`. -/
inductive Inbound.Awaits (s : Server) (i : Nat) (e : IncomingEvent) (inbound : Inbound) : Prop
  | arrived (rest : List IncomingEvent) : inbound.events = e :: rest → Awaits s i e inbound
  | coming : inbound.events = [] → inbound.ending = none → s.Upcoming i e → Awaits s i e inbound
  | lost : inbound.events = [] → inbound.ending ≠ none → Awaits s i e inbound

/--
A player whose game was started on console `c`: the start event is the first one that its stream was due,
and it is the first one to read as long as no wait was successful.
-/
structure Player.Informed (c : Console) (m : Member) (i : Nat) (s : Server)
    (sent : List IncomingEvent) (x : Player β) : Prop where
  enrolled : Game.Enrolled c m x.game
  delay : x.emulator.delay = m.delay
  stream : x.stream = some i
  first : ∃ rest, sent = c.startEvent :: rest
  queues : x.game.status = .notYetStarted → x.game.queues = ∅
  awaits : x.game.status = .notYetStarted → ∀ inbound, x.game.inbound = some inbound →
    inbound.Awaits s i c.startEvent

section Informed

variable {c : Console} {m : Member} {i : Nat} {s : Server} {sent : List IncomingEvent}
variable {x x' : Player β} {inbound : Inbound}

theorem Inbound.Awaits.deliver {e : IncomingEvent} (h : inbound.Awaits s i e) (n : Nat)
    : (inbound.deliver (s.take i n).1).Awaits (s.take i n).2 i e := by
  unfold Inbound.deliver
  cases h with
  | arrived rest heq =>
    split
    . exact .arrived rest heq
    . exact .arrived (rest ++ (s.take i n).1) (by rw [heq]; rfl)
  | lost hnil hended =>
    rw [if_pos (Option.isSome_iff_ne_none.2 hended)]
    exact .lost hnil hended
  | coming hnil hopen hup =>
    rw [hopen, if_neg (by simp)]
    rcases hup.take n with ⟨rest, heq⟩ | ⟨heq, hup⟩
    . exact .arrived rest (by rw [hnil, heq]; rfl)
    . have hsame : inbound.events ++ (s.take i n).1 = [] := by
        rw [hnil, heq]
        rfl
      exact .coming hsame rfl hup

theorem Inbound.Awaits.finish {e : IncomingEvent} (h : inbound.Awaits s i e) (ending : StreamEnd)
    : (inbound.finish ending).Awaits s i e := by
  unfold Inbound.finish
  split
  . exact h
  . cases h with
    | arrived rest heq => exact .arrived rest heq
    | coming hnil _ _ => exact .lost hnil (by simp)
    | lost hnil _ => exact .lost hnil (by simp)

theorem Inbound.Awaits.step {e : IncomingEvent} (h : inbound.Awaits s i e) (hcons : s.Consistent)
    {op : Option Server.Operation} (htake : ∀ n, op ≠ some (.take i n))
    : inbound.Awaits (s.run op.toList) i e := by
  cases op with
  | none => exact h
  | some op =>
    cases h with
    | arrived rest heq => exact .arrived rest heq
    | lost hnil hended => exact .lost hnil hended
    | coming hnil hopen hup =>
      exact .coming hnil hopen (hup.step hcons fun n heq => htake n (by rw [heq]))

/-- A wait that is not successful has found the end of the stream. -/
theorem Player.Informed.awaits_await (h : x.Informed c m i s sent) (hexclusive : c.Exclusive)
    {o : Outcome β ClientError Unit} (ho : x.game.awaitStart? = some o)
    (hwaits : o.game.status = .notYetStarted)
    : o.game.queues = ∅ ∧ ∀ inbound, o.game.inbound = some inbound →
        inbound.Awaits s i c.startEvent := by
  have hbefore := Game.awaitStart?_notYetStarted ho hwaits
  have hempty := h.queues hbefore
  cases hinbound : x.game.inbound with
  | none =>
    unfold Game.awaitStart? at ho
    rw [hinbound, Option.some.injEq] at ho
    rw [← ho]
    exact ⟨hempty, h.awaits hbefore⟩
  | some inbound =>
    cases h.awaits hbefore inbound hinbound with
    | arrived rest heq =>
      rcases Game.awaitStart?_startEvent hexclusive h.enrolled hempty hinbound heq with
        ⟨o', ho', _, hjoined⟩
      rw [ho, Option.some.injEq] at ho'
      rw [← ho'] at hjoined
      have := hjoined.running
      rw [hwaits] at this
      simp at this
    | coming hnil hopen _ =>
      unfold Game.awaitStart? Inbound.read at ho
      simp [hinbound, hnil, hopen] at ho
    | lost hnil hended =>
      rcases Option.ne_none_iff_exists'.1 hended with ⟨ending, hending⟩
      unfold Game.awaitStart? Inbound.read at ho
      simp only [hinbound, hnil, hending, Option.some.injEq] at ho
      rw [← ho]
      refine ⟨hempty, ?_⟩
      intro inbound' heq
      rw [Option.some.injEq] at heq
      rw [← heq]
      exact .lost rfl (by simp)

/-- What a player knows who has no queues yet it knows after whatever it does. -/
theorem Player.Informed.idles (h : x.Informed c m i s sent) (hexclusive : c.Exclusive)
    (hcons : s.Consistent) {op : Option Server.Operation} (hidles : x.Idles s op x')
    (hwaits : x'.game.status = .notYetStarted) (hbefore : x.game.status = .notYetStarted)
    : x'.game.queues = ∅ ∧ ∀ inbound, x'.game.inbound = some inbound →
        inbound.Awaits (s.run op.toList) i c.startEvent := by
  have hempty := h.queues hbefore
  have hawaits := h.awaits hbefore
  cases hidles with
  | rest hspares =>
    refine ⟨hempty, fun inbound hinbound => ?_⟩
    exact (hawaits inbound hinbound).step hcons (hspares i h.stream).2
  | ready hnone => simp [h.stream] at hnone
  | await ho => exact h.awaits_await hexclusive ho hwaits
  | cancel => exact ⟨hempty, fun _ heq => by simp [Game.cancel] at heq⟩
  | hangUp => exact ⟨hempty, hawaits⟩
  | transmit _ _ =>
    refine ⟨hempty, fun inbound hinbound => ?_⟩
    exact (hawaits inbound hinbound).step hcons (by simp)
  | @deliver j n hj =>
    rw [h.stream, Option.some.injEq] at hj
    subst hj
    refine ⟨hempty, fun inbound' hinbound' => ?_⟩
    unfold Game.deliver at hinbound'
    rw [Option.map_eq_some_iff] at hinbound'
    rcases hinbound' with ⟨inbound, hinbound, rfl⟩
    exact (hawaits inbound hinbound).deliver n
  | finish =>
    refine ⟨hempty, fun inbound' hinbound' => ?_⟩
    unfold Game.finishStream at hinbound'
    rw [Option.map_eq_some_iff] at hinbound'
    rcases hinbound' with ⟨inbound, hinbound, rfl⟩
    exact (hawaits inbound hinbound).finish _

/-- A wait comes back without success only once the stream has ended and nothing is left to read. -/
theorem Player.Informed.start (h : x.Informed c m i s sent) (hexclusive : c.Exclusive)
    (hwaits : x.game.status = .notYetStarted) (hinbound : x.game.inbound = some inbound)
    (hopen : inbound.ending = none ∨ inbound.events ≠ []) {o : Outcome β ClientError Unit}
    (ho : x.game.awaitStart? = some o) : o.result = .ok () ∧ Game.Joined c m o.game := by
  cases h.awaits hwaits inbound hinbound with
  | arrived rest heq =>
    rcases Game.awaitStart?_startEvent hexclusive h.enrolled (h.queues hwaits) hinbound heq with
      ⟨o', ho', hjoined⟩
    rw [ho, Option.some.injEq] at ho'
    rw [ho']
    exact hjoined
  | coming hnil hending _ =>
    unfold Game.awaitStart? Inbound.read at ho
    simp [hinbound, hnil, hending] at ho
  | lost hnil hended =>
    rcases hopen with hending | hevents
    . exact absurd hending hended
    . exact absurd hnil hevents

/-- Who still listens finds the start event at the next look into its mailbox. -/
theorem Player.Informed.start_of_reader (h : x.Informed c m i s sent) (hexclusive : c.Exclusive)
    (hwaits : x.game.status = .notYetStarted) (hinbound : x.game.inbound = some inbound)
    (hending : inbound.ending = none)
    (hreader : ∀ b, s.room.boxes[i]? = some b → b.hasReader = true) {n : Nat} (hn : 0 < n)
    : ∃ o, (x.deliver s n).game.awaitStart? = some o ∧ o.result = .ok () ∧
        Game.Joined c m o.game := by
  have hdeliver : x.deliver s n = { x with game := x.game.deliver (s.take i n).1 } := by
    unfold Player.deliver
    rw [h.stream]
  have hinbound' : (x.deliver s n).game.inbound
      = some { inbound with events := inbound.events ++ (s.take i n).1 } := by
    rw [hdeliver]
    simp [Game.deliver, Inbound.deliver, hinbound, hending]
  have hevents : ∃ rest, inbound.events ++ (s.take i n).1 = c.startEvent :: rest := by
    cases h.awaits hwaits inbound hinbound with
    | arrived rest heq => exact ⟨rest ++ (s.take i n).1, by rw [heq]; rfl⟩
    | lost _ hended => exact absurd hending hended
    | coming hnil _ hup =>
      rcases hup.take_of_reader hreader hn with ⟨rest, heq⟩
      exact ⟨rest, by rw [hnil, heq]; rfl⟩
  rcases hevents with ⟨rest, hevents⟩
  refine Game.awaitStart?_startEvent hexclusive ?_ ?_ hinbound' hevents
  . rw [hdeliver]
    exact h.enrolled.of_sameSeat ⟨rfl, rfl, rfl⟩
  . rw [hdeliver]
    exact h.queues hwaits

end Informed

namespace Party

/-- A party whose game was started on console `c`. -/
structure Launched (c : Console) (sent : Nat → List IncomingEvent) (p : Party β) : Prop where
  convened : p.Convened
  started : ∃ c', p.server.lobby.console? p.console = some c' ∧ c'.status ≠ .created
  player : ∀ id m, c.members.get? id = some m →
    ∃ (h : Nat) (x : Player β), p.players[h]? = some x ∧ x.game.clientId = id
  informed : ∀ (h : Nat) (x : Player β), p.players[h]? = some x →
    ∃ m i, x.Informed c m i p.server (sent i)

section Launch

variable {p : Party β} {c : Console} {m : Member} {id : ClientId} {h : Nat} {x : Player β}

/-- A client that is ready is a player, and its stream belongs to it. -/
theorem Convened.player_of_ready (hconvened : p.Convened)
    (hc : p.server.lobby.console? p.console = some c) (hm : c.members.get? id = some m)
    (hready : m.status = .ready)
    : ∃ (h : Nat) (x : Player β) (i : Nat), p.players[h]? = some x ∧ x.game.clientId = id ∧
        x.stream = some i ∧ p.server.boundTo i = some ⟨p.console, id⟩ ∧ p.server.Live i := by
  have hseated := hconvened.seated
  rcases hconvened.linked c id m hc hm (by simp [hready]) (by simp [hready]) with ⟨i, hi⟩
  have hholds : p.server.Holds p.console id i := ⟨c, m, hc, hm, hi⟩
  have hb := hseated.consistent.boundTo_of_holds hholds
  rcases hseated.own i _ hb rfl with ⟨h, x, hx, hstream⟩
  have hself := hseated.bound h x i _ hx hstream hb
  rw [Binding.mk.injEq] at hself
  exact ⟨h, x, i, hx, hself.2.symm, hstream, hb, Or.inl ⟨_, _, hholds⟩⟩

theorem Convened.enrolled (hconvened : p.Convened)
    (hc : p.server.lobby.console? p.console = some c) (hx : p.players[h]? = some x)
    : ∃ m, Game.Enrolled c m x.game ∧ x.emulator.delay = m.delay := by
  have hid := hconvened.seated.consoleId h x hx
  rw [Server.consoleId?_of_console? hc, Option.some.injEq] at hid
  have hclaim := hconvened.seated.claim h x hx
  rw [Server.claim?_of_console? hc, Console.claim?_eq_some_iff] at hclaim
  rcases hclaim with ⟨m, hm, hports, hdelay⟩
  refine ⟨m, ⟨hid.symm, ?_, hm, hports.symm⟩, hdelay.symm⟩
  rw [hid]
  exact hconvened.valid h x hx

variable {sent : Nat → List IncomingEvent}

theorem Gathering.informed_start (hg : p.Gathering sent) (huniform : p.server.Uniform)
    (hc : p.server.lobby.console? p.console = some c) (hcreated : c.status = .created)
    (hready : c.allReady = true) (hx : p.players[h]? = some x)
    : ∃ m i, x.Informed c m i (p.server.perform (.start p.console))
        (sent i ++ p.server.due i (.start p.console)) := by
  have hcons := hg.convened.seated.consistent
  have hwaits : p.Waiting := by
    intro c' hc'
    rw [hc, Option.some.injEq] at hc'
    rwa [← hc']
  rcases hg.convened.enrolled hc hx with ⟨m, henrolled, hdelay⟩
  rcases hg.convened.player_of_ready hc henrolled.member
    (Console.ready_of_allReady hready henrolled.member) with ⟨h', y, i, hy, hid, hi, hb, hlive⟩
  have hsame := hg.convened.seated.distinct h' h y x hy hx hid
  rw [hsame, hx, Option.some.injEq] at hy
  subst hy
  rcases hg.stage hwaits h x hx with ⟨hempty, hstage⟩
  cases hstage with
  | seated hnone => simp [hi] at hnone
  | @announced j _ hj hfree =>
    rw [hi, Option.some.injEq] at hj
    rw [← hj, hb] at hfree
    simp at hfree
  | @refused j hj hfree =>
    rw [hi, Option.some.injEq] at hj
    rw [← hj, hb] at hfree
    simp at hfree
  | @attached j _ hj _ _ hsent hflow =>
    rw [hi, Option.some.injEq] at hj
    subst hj
    unfold Player.flow Player.mail at hflow
    rw [hi, List.append_eq_nil_iff] at hflow
    refine ⟨m, i, henrolled, hdelay, hi, ⟨[], ?_⟩, fun _ => hempty, ?_⟩
    . rw [hsent, Server.due_start hb hc hcreated hready]
      rfl
    . intro _ inbound hinbound
      have hevents : inbound.events = [] := by
        have := hflow.1
        unfold Game.unread at this
        rwa [hinbound] at this
      cases hending : inbound.ending with
      | some ending => exact .lost hevents (by simp [hending])
      | none =>
        refine .coming hevents hending ?_
        rcases Server.boundTo_eq_some_iff.1 hb with ⟨stream, hstream, _⟩
        rcases hcons.box hstream with ⟨box, hbox⟩
        apply Server.upcoming_start hcons hc hcreated hready hb hlive hbox
        . have := hflow.2
          dsimp at this
          unfold Mailroom.pending at this
          rwa [hbox] at this
        . rw [huniform i box hbox]
          decide

/-- Nobody takes a seat once the game has started. -/
theorem newcomer?_of_started (hstarted : c.status ≠ .created)
    (hc : p.server.lobby.console? p.console = some c) (m : Move β) : p.newcomer? m = none := by
  cases hnew : p.newcomer? m with
  | none => rfl
  | some x =>
    rcases newcomer?_eq_some hnew with ⟨e, ports, request, _, hrequest, hseated⟩
    have hstatus := (Player.seated?_eq_some hseated).1
    rcases Server.plugController_served (Server.served_of_ofNumber hstatus) with
      ⟨k, c', _, hlookup, hcreated, _⟩
    have hk := (request?_eq_some hrequest).2.2
    rw [hlookup, Option.map_some, Option.some.injEq] at hk
    dsimp at hk
    have hc' := (Lobby.lookup?_eq_some hlookup).1
    rw [hk, hc, Option.some.injEq] at hc'
    exact absurd (hc' ▸ hcreated) hstarted

variable [Inhabited β] {coder : Coder β}

theorem launched_of_gathering (hg : p.Gathering sent) (huniform : p.server.Uniform)
    {request : StartRequest}
    (hlookup : p.server.lobby.lookup? ⟨request.consoleId⟩ = some (p.console, c))
    (hcreated : c.status = .created) (hready : c.allReady = true)
    : let t := Turn.move (.serve (.startGame request))
      (p.turn coder t).Launched c (fun i => sent i ++ p.dueOn t i) := by
  intro t
  have hc := (Lobby.lookup?_eq_some hlookup).1
  have heffect : p.effect? t = some (.startGame request) := rfl
  have hacts : p.server.acts (.startGame request) = [.start p.console] := by
    simp [Server.acts, hlookup]
  have hserver : (p.turn coder t).server = p.server.perform (.start p.console) := by
    rw [server_turn, heffect, Option.toList_some, Server.run_cons, Server.run_nil,
      Server.step_eq_performAll, hacts]
    rfl
  have hplayers : (p.turn coder t).players = p.players := List.append_nil _
  constructor
  . exact convened_turn coder hg.convened t
  . rw [hserver]
    exact Server.console?_start hc hcreated hready
  . intro id m hm
    rcases hg.convened.player_of_ready hc hm (Console.ready_of_allReady hready hm) with
      ⟨h, x, _, hx, hid, _⟩
    exact ⟨h, x, hplayers ▸ hx, hid⟩
  . intro h x hx
    rw [hplayers] at hx
    rcases hg.informed_start huniform hc hcreated hready hx with ⟨m, i, hinformed⟩
    refine ⟨m, i, ?_⟩
    rw [hserver, dueOn_of_some heffect, hacts]
    simpa [Server.trace] using hinformed

theorem launched_turn (hexclusive : c.Exclusive) (hl : p.Launched c sent) (t : Turn β)
    : (p.turn coder t).Launched c (fun i => sent i ++ p.dueOn t i) := by
  have hconvened := hl.convened
  rcases hl.started with ⟨c₀, hc₀, hstarted⟩
  constructor
  . exact convened_turn coder hconvened t
  . rw [server_turn, console_turn]
    exact Server.started_run hc₀ hstarted _
  . intro id m hm
    rcases hl.player id m hm with ⟨h, x, hx, hid⟩
    rcases remains_turn coder t hx with ⟨x', hx', hremains⟩
    exact ⟨h, x', hx', hremains.seat.clientId.trans hid⟩
  . intro h x' hx'
    rcases players_turn_cases hx' with ⟨x, hx, hremains, hstream, hback⟩ | ⟨move, _, hnew⟩
    . rcases hl.informed h x hx with ⟨m, i, hinformed⟩
      have hidle : x'.game.status = .notYetStarted →
          x'.game.queues = ∅ ∧ ∀ inbound, x'.game.inbound = some inbound →
            inbound.Awaits (p.turn coder t).server i c.startEvent := by
        intro hwaits
        have hempty := hinformed.queues (hback hwaits)
        rw [server_turn]
        exact hinformed.idles hexclusive hconvened.seated.consistent
          (idles_of_turn hconvened.seated hx hx' hempty) hwaits (hback hwaits)
      refine ⟨m, i, hinformed.enrolled.of_sameSeat hremains.seat, ?_, ?_, ?_,
        fun hwaits => (hidle hwaits).1, fun hwaits => (hidle hwaits).2⟩
      . rw [hremains.emulator]
        exact hinformed.delay
      . rcases hstream with hnone | heq
        . simp [hinformed.stream] at hnone
        . exact heq.trans hinformed.stream
      . rcases hinformed.first with ⟨rest, heq⟩
        exact ⟨rest ++ p.dueOn t i, by rw [heq]; rfl⟩
    . rw [newcomer?_of_started hstarted hc₀ move] at hnew
      simp at hnew

theorem launched_play (hexclusive : c.Exclusive) (hl : p.Launched c sent) (turns : List (Turn β))
    : (p.play coder turns).Launched c fun i => sent i ++ p.dueAlong coder turns i :=
  play_induction (P := fun sent p => p.Launched c sent)
    (fun _ _ t hl => launched_turn hexclusive hl t) hl turns

end Launch

section Waits

variable [Inhabited β]

/-- Whether a wait of player `h` for the start comes back in a turn. -/
def returns (p : Party β) (h : Nat) : Turn β → Bool
  | .move (.await a) => a = h && (p.players[h]?).any fun x => x.game.awaitStart?.isSome
  | _ => false

/-- Whether a wait of player `h` for the start has come back in a number of turns. -/
def waited (coder : Coder β) (h : Nat) (p : Party β) : List (Turn β) → Bool
  | [] => false
  | t :: turns => p.returns h t || (p.turn coder t).waited coder h turns

variable {coder : Coder β} {p : Party β} {t : Turn β} {h : Nat} {x x' : Player β}

/-- The game of a player has not started, and there is nothing in it. -/
def Fresh (p : Party β) (h : Nat) : Prop :=
  ∀ x, p.players[h]? = some x → x.game.status = .notYetStarted ∧ x.game.queues = ∅

theorem Fresh.turn (hfresh : p.Fresh h) (hconvened : p.Convened) (hreturns : p.returns h t = false)
    : (p.turn coder t).Fresh h := by
  intro x' hx'
  cases t with
  | put a updates =>
    rcases getElem?_modify_cases hx' with ⟨x, hx, ⟨_, rfl⟩ | ⟨_, rfl⟩⟩
    . rw [Player.store_of_empty (hfresh x hx).2]
      exact hfresh x hx
    . exact hfresh x' hx
  | move m =>
    cases yields_step hx' with
    | rest hx _ => exact hfresh x' hx
    | seat _ _ hnew =>
      have hnewcomer := newcomer_step hconvened.seated hnew
      exact ⟨hnewcomer.status, hnewcomer.queues⟩
    | @move x _ hx hmover hacts =>
      have hbefore := hfresh x hx
      generalize p.observed coder m = obs at hacts
      cases hacts with
      | await ho =>
        rw [mover?_eq_some_iff, Move.actor?, Option.some.injEq] at hmover
        simp [returns, hmover.1, hx, ho] at hreturns
      | put _ =>
        rw [(Game.put_of_empty coder hbefore.2 _).1]
        exact hbefore
      | get ho =>
        rw [Game.get?_of_empty hbefore.2 ho]
        exact hbefore
      | _ => exact hbefore

theorem Fresh.play (hfresh : p.Fresh h) (hconvened : p.Convened) {turns : List (Turn β)}
    (hwaited : p.waited coder h turns = false) : (p.play coder turns).Fresh h := by
  induction turns generalizing p with
  | nil => exact hfresh
  | cons t turns ih =>
    unfold waited at hwaited
    rw [Bool.or_eq_false_iff] at hwaited
    exact ih (hfresh.turn hconvened hwaited.1) (convened_turn coder hconvened t) hwaited.2

end Waits

section Fit

variable [Inhabited β]

theorem launched_of_startGame (coder : Coder β) (testMode : Bool) (limit : Option Nat)
    (ops : List Server.Operation) (setup later : List (Turn β)) (request : StartRequest)
    : let s₀ := Server.initial testMode limit
      let p₀ : Party β := start (s₀.run ops)
      let p := p₀.play coder setup
      let turns := setup ++ .move (.serve (.startGame request)) :: later
      p.server.lobby.find? ⟨request.consoleId⟩ = some p.console →
      (p.server.startGame request).1.status = Enumeration.number StartStatus.success →
        ∃ c, p.server.lobby.console? p.console = some c ∧ c.Exclusive ∧
          (p₀.play coder turns).Launched c fun i =>
            Server.trace (Server.due i) s₀ (s₀.history (ops ++ p₀.operations coder turns)) := by
  intro s₀ p₀ p turns hfind hsuccess
  have hserver : p.server = s₀.run (ops ++ p₀.operations coder setup) := by
    rw [Server.run_append]
    exact server_play coder p₀ setup
  rcases Server.startGame_eq_success hsuccess with ⟨k, c, hlookup, hcreated, hready⟩
  have hk := Lobby.find?_of_lookup? hlookup
  rw [hfind, Option.some.injEq] at hk
  subst hk
  have hc := (Lobby.lookup?_eq_some hlookup).1
  have hg : p.Gathering _ := gathering_play (gathering_start testMode limit ops) setup
  have hexclusive := hg.convened.seated.exclusive _ c hc
  have huniform : p.server.Uniform := by
    rw [hserver]
    exact Server.uniform_run testMode limit _
  have hplay : p₀.play coder turns
      = (p.turn coder (.move (.serve (.startGame request)))).play coder later := by
    rw [play_append]
    rfl
  have hsent : ∀ i, Server.trace (Server.due i) s₀ (s₀.history (ops ++ p₀.operations coder turns))
      = Server.trace (Server.due i) s₀ (s₀.history ops) ++ p₀.dueAlong coder setup i
          ++ p.dueOn (.move (.serve (.startGame request))) i
          ++ (p.turn coder (.move (.serve (.startGame request)))).dueAlong coder later i := by
    intro i
    have hturns : p₀.dueAlong coder turns i
        = p₀.dueAlong coder setup i ++ (p.dueOn (.move (.serve (.startGame request))) i
          ++ (p.turn coder (.move (.serve (.startGame request)))).dueAlong coder later i) := by
      rw [dueAlong_append, dueAlong_cons]
    rw [Server.trace_history_append, List.append_assoc, List.append_assoc, ← hturns]
    rfl
  refine ⟨c, hc, hexclusive, ?_⟩
  rw [hplay, funext hsent]
  exact launched_play hexclusive (launched_of_gathering hg huniform hlookup hcreated hready) later

/--
The handshake of server and players always fits. Players take their seats, announce that they are ready,
wait, put, get and disconnect in any order, and whenever the game of their console is started every
client is a player whose stream was due the start event before anything else. As long as the stream is
still open, the first wait comes back at the next look into the mailbox and is successful: the game has
the ports that the server has assigned to the client as local ports and those of all other clients as
remote ports, together all ports of the start event, and the delay of the client for its own ports only.
-/
theorem handshake_fits (coder : Coder β) (testMode : Bool) (limit : Option Nat)
    (ops : List Server.Operation) (setup later : List (Turn β)) (request : StartRequest)
    : let s₀ := Server.initial testMode limit
      let p₀ : Party β := start (s₀.run ops)
      let p := p₀.play coder setup
      let turns := setup ++ .move (.serve (.startGame request)) :: later
      let p' := p₀.play coder turns
      let acts := s₀.history (ops ++ p₀.operations coder turns)
      p.server.lobby.find? ⟨request.consoleId⟩ = some p.console →
      (p.server.startGame request).1.status = Enumeration.number StartStatus.success →
        ∃ c, p.server.lobby.console? p.console = some c ∧
          (∀ id m, c.members.get? id = some m →
            ∃ (h : Nat) (x : Player β), p'.players[h]? = some x ∧ x.game.clientId = id) ∧
          ∀ (h : Nat) (x : Player β), p'.players[h]? = some x →
            ∃ m i, c.members.get? x.game.clientId = some m ∧ x.emulator.delay = m.delay ∧
              x.stream = some i ∧
              (∃ rest, Server.trace (Server.due i) s₀ acts = c.startEvent :: rest) ∧
              Server.trace (Server.received i) s₀ acts ++ p'.server.room.pending i
                <+: Server.trace (Server.due i) s₀ acts ∧
              (p₀.waited coder h turns = false → x.game.status = .notYetStarted) ∧
              ∀ inbound, x.game.status = .notYetStarted → x.game.inbound = some inbound →
                (∀ o, inbound.ending = none ∨ inbound.events ≠ [] →
                  x.game.awaitStart? = some o → o.result = .ok () ∧ Game.Joined c m o.game) ∧
                (∀ n, 0 < n → inbound.ending = none →
                  (∀ b, p'.server.room.boxes[i]? = some b → b.hasReader = true) →
                    ∃ o, (x.deliver p'.server n).game.awaitStart? = some o ∧ o.result = .ok () ∧
                      Game.Joined c m o.game) := by
  intro s₀ p₀ p turns p' acts hfind hsuccess
  rcases launched_of_startGame coder testMode limit ops setup later request hfind hsuccess with
    ⟨c, hc, hexclusive, hl⟩
  refine ⟨c, hc, hl.player, ?_⟩
  intro h x hx
  rcases hl.informed h x hx with ⟨m, i, hinformed⟩
  refine ⟨m, i, hinformed.enrolled.member, hinformed.delay, hinformed.stream, hinformed.first,
    ?_, ?_, ?_⟩
  . have hserver : p'.server = s₀.run (ops ++ p₀.operations coder turns) := by
      rw [Server.run_append]
      exact server_play coder p₀ turns
    rw [hserver]
    exact (Server.tracked_run testMode limit _ i).outbox
  . intro hwaited
    have hfresh : p₀.Fresh h := by
      intro x hx
      simp [p₀, start] at hx
    exact (hfresh.play (convened_start testMode limit ops) hwaited x hx).1
  . intro inbound hwaits hinbound
    exact ⟨fun o hopen ho => hinformed.start hexclusive hwaits hinbound hopen ho,
      fun n hn hending hreader =>
        hinformed.start_of_reader hexclusive hwaits hinbound hending hreader hn⟩

end Fit

/--
Two players take their seats. The first one puts buttons before it has anything to put them into, and the
second one waits before the server knows that it is ready.
-/
def lineUp : List (Turn UInt32) :=
  [.move (.serve (.makeConsole { title := "a" })),
    .move (.seat { consoleId := ⟨1⟩, delay := 1 } [.one]), .move (.seat { consoleId := ⟨1⟩ } [.two]),
    .move (.ready 0), .move (.ready 1), .put 0 [⟨.one, 0, 7⟩], .move (.await 1),
    .move (.transmit 0), .move (.transmit 1)]

/-- The first player is told about the start and puts buttons before the second one looks. -/
def headStart : List (Turn UInt32) :=
  [.move (.deliver 0 1), .move (.await 0), .put 0 [⟨.one, 0, 7⟩], .move (.transmit 0)]

def linedUp : Party UInt32 := (start (Server.initial false none)).play Coder.word lineUp

def underway : Party UInt32 :=
  (start (Server.initial false none)).play Coder.word
    (lineUp ++ .move (.serve (.startGame { consoleId := 1 })) :: headStart)

theorem handshake_fits_headStart
    : linedUp.server.lobby.find? ⟨1⟩ = some linedUp.console ∧
        (linedUp.server.startGame { consoleId := 1 }).1.status
          = Enumeration.number StartStatus.success ∧
        ∃ c x m o, linedUp.server.lobby.console? linedUp.console = some c ∧
          underway.players[1]? = some x ∧ c.members.get? x.game.clientId = some m ∧
          (x.deliver underway.server 2).game.awaitStart? = some o ∧ o.result = .ok () ∧
          Game.Joined c m o.game := by
  have hfind : linedUp.server.lobby.find? ⟨1⟩ = some linedUp.console := by decide +kernel
  have hsuccess : (linedUp.server.startGame { consoleId := 1 }).1.status
      = Enumeration.number StartStatus.success := by decide +kernel
  have hwaited : (start (Server.initial false none)).waited Coder.word 1
      (lineUp ++ .move (.serve (.startGame { consoleId := 1 })) :: headStart) = false := by
    decide +kernel
  have hopen : (underway.players[1]?).any (fun x => x.game.inbound.any (·.ending.isNone))
      = true := by decide +kernel
  have hreaders : underway.server.room.boxes.all (·.hasReader) = true := by decide +kernel
  rcases (Option.any_eq_true _ _).1 hopen with ⟨x, hx, hopen⟩
  rcases (Option.any_eq_true _ _).1 hopen with ⟨inbound, hinbound, hending⟩
  have hfits := handshake_fits Coder.word false none [] lineUp headStart { consoleId := 1 }
    hfind hsuccess
  rcases hfits with ⟨c, hc, _, hfits⟩
  rcases hfits 1 x hx with ⟨m, i, hm, _, _, _, _, hwaits, hfits⟩
  rcases (hfits inbound (hwaits hwaited) hinbound).2 2 (by decide) (Option.isNone_iff_eq_none.1 hending)
      fun b hb => List.all_eq_true.1 hreaders b (List.mem_of_getElem? hb) with ⟨o, ho, hjoined⟩
  exact ⟨hfind, hsuccess, c, x, m, o, hc, hx, hm, ho, hjoined⟩

end Party

end PadRelay
