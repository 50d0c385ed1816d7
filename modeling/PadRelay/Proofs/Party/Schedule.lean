import PadRelay.Proofs.Party.Complete
import PadRelay.Proofs.Party.Play

/-!
This module contains the proof that no frame is lost in normal play: if everybody puts the input of one
frame after the other and reads one frame after the other, nothing is refused and everybody obtains what
was put.
-/

namespace PadRelay

variable {β : Type}

def Move.counted (m : Move β) (puts : Nat → Nat) : Nat → Nat :=
  match m with
  | .put h _ => bump puts h
  | _ => puts

namespace Party

/--
A game that has started: all clients of the console are players, all players run, and no stream has
broken. Nothing was put or obtained yet, and nothing is on its way.
-/
structure Started (p : Party β) : Prop where
  console : ∃ c, p.server.lobby.console? p.console = some c ∧ c.status = .powered ∧
    ∀ id m, c.members.get? id = some m → m.status = .playing ∧ m.hasStream = true ∧
      ∃ (h : Nat) (x : Player β), p.players[h]? = some x ∧ x.game.clientId = id
  running : ∀ (h : Nat) (x : Player β), p.players[h]? = some x → x.game.status = .running
  delay : ∀ (h : Nat) (x : Player β), p.players[h]? = some x → 0 ≤ x.emulator.delay.toInt
  inbound : ∀ (h : Nat) (x : Player β), p.players[h]? = some x →
    (∃ inbound, x.game.inbound = some inbound ∧ inbound.ending = none) ∧ x.game.hungUp = false
  reader : ∀ (h : Nat) (x : Player β) (i : Nat) (b : Mailbox), p.players[h]? = some x →
    x.stream = some i → p.server.room.boxes[i]? = some b → b.hasReader = true
  quiet : ∀ (h : Nat) (x : Player β), p.players[h]? = some x →
    x.flow p.server = [] ∧ x.outbox = []
  log : p.log = []

/-- How many frames of player `o` player `h` can know of: its own, or those that were sent. -/
def known (p : Party β) (puts : Nat → Nat) (h o : Nat) : Nat :=
  if o = h then puts o else puts o - ((p.players[o]?).map (·.outbox.length)).getD 0

/--
The moves of normal play, after each player `h` has put the input of `puts h` frames. A call of `put` is
about the next frame of all ports of a player, and a call of `get` is about the next frame of a port. If
that frame is not within the delay its owner has put it and sent it. There is room in all mailboxes that
something is sent to.
-/
inductive Allows (p : Party β) (frames : Nat) (input : Nat → Nat → Port → β) (puts : Nat → Nat) :
    Move β → Prop
  | put {h : Nat} {x : Player β} {updates : List (ButtonUpdate β)} :
    p.players[h]? = some x → puts h < frames →
    (updates.map (·.port)).Perm x.game.localPorts.toList →
    (∀ u ∈ updates, u.frame.toInt = puts h ∧ u.buttons = input h (puts h) u.port) →
    Allows p frames input puts (.put h updates)
  | get {h o : Nat} {x y : Player β} {port : Port} {frame : Int32} :
    p.players[h]? = some x → p.players[o]? = some y →
    y.game.localPorts.contains port = true → frame.toInt = p.reads h port →
    frame.toInt < y.emulator.delay.toInt + p.known puts h o →
    Allows p frames input puts (.get h port frame)
  | transmit {h : Nat} {x : Player β} :
    p.players[h]? = some x →
    (∀ (h' : Nat) (y : Player β) (i : Nat) (b : Mailbox), h' ≠ h → p.players[h']? = some y →
      y.stream = some i → p.server.room.boxes[i]? = some b → b.pending.length < b.capacity) →
    Allows p frames input puts (.transmit h)
  | deliver {h n : Nat} {x : Player β} :
    p.players[h]? = some x → Allows p frames input puts (.deliver h n)
  | serve {op : Server.Operation} : p.Ignores op → Allows p frames input puts (.serve op)

/-- Nobody has left the game, and nobody is sent that its data is invalid. -/
structure Undisturbed (p : Party β) : Prop where
  console : ∃ c, p.server.lobby.console? p.console = some c ∧
    ∀ id m, c.members.get? id = some m → m.status = .playing
  valid : ∀ (h : Nat) (x : Player β), p.players[h]? = some x → ∀ e ∈ x.flow p.server, e.invalid = []

variable [Inhabited β]

/-- All moves of a run are ones of normal play. -/
def Schedules (coder : Coder β) (frames : Nat) (input : Nat → Nat → Port → β) :
    (puts : Nat → Nat) → Party β → List (Move β) → Prop
  | _, _, [] => True
  | puts, p, m :: rest =>
    p.Allows frames input puts m ∧
      Schedules coder frames input (m.counted puts) (p.step coder m) rest

/--
A call of `put` or `get` is answered as it should be. Who has to wait for buttons is given them once its
mail has arrived.
-/
def Answers (coder : Coder β) (p : Party β) (input : Nat → Nat → Port → β) : Move β → Prop
  | .put h updates => ∀ x, p.players[h]? = some x → (x.game.put coder updates).result = .ok ()
  | .get h port frame => ∀ (x : Player β) (o : Nat) (y : Player β), p.players[h]? = some x →
    p.players[o]? = some y → y.game.localPorts.contains port = true →
      x.game.Gives coder port frame (y.buttonsAt (input o) port frame) ∨
        (x.game.get? coder port frame = none ∧
          (x.game.deliver (x.mail p.server)).Gives coder port frame
            (y.buttonsAt (input o) port frame))
  | _ => True

section Start

variable {coder : Coder β} {p : Party β} {h : Nat} {x : Player β}

omit [Inhabited β] in
theorem Started.member (hs : p.Started) (hseated : Seated p.server p.console p.players)
    {c : Console} (hc : p.server.lobby.console? p.console = some c)
    (hx : p.players[h]? = some x)
    : ∃ m i, c.members.get? x.game.clientId = some m ∧ m.ports = x.game.localPorts ∧
        m.mailbox = some i ∧ x.stream = some i := by
  rcases Server.claim?_eq_some_iff.1 (hseated.claim h x hx) with ⟨c₁, m, hc₁, hm, hports, _⟩
  rw [hc, Option.some.injEq] at hc₁
  subst hc₁
  rcases hs.console with ⟨c₁, hc₁, _, hmembers⟩
  rw [hc, Option.some.injEq] at hc₁
  subst hc₁
  have hstream := (hmembers _ m hm).2.1
  unfold Member.hasStream at hstream
  rcases Option.isSome_iff_exists.1 hstream with ⟨i, hi⟩
  refine ⟨m, i, hm, hports, hi, ?_⟩
  -- A client of the console holds no stream but one that a player has opened for it.
  have hbound := hseated.consistent.boundTo_of_holds ⟨c, m, hc, hm, hi⟩
  rcases hseated.own i _ hbound rfl with ⟨h', x', hx', hi'⟩
  have heq := hseated.bound h' x' i _ hx' hi' hbound
  rw [Binding.mk.injEq] at heq
  have := hseated.distinct h h' x x' hx hx' heq.2
  subst this
  rw [hx, Option.some.injEq] at hx'
  rw [hx']
  exact hi'

theorem Started.stocked (hs : p.Started) (hord : p.Orderly coder) (hcomplete : p.Complete)
    (hx : p.players[h]? = some x) (input : Nat → Nat → Port → β)
    : Stocked p.players input h (fun _ _ => 0) (fun _ => 0) x.game.queues := by
  intro o y port hy hport
  have hseated := hord.sound.seated
  have hclaim := hseated.claim o y hy
  rcases hcomplete.queues h x hx (hs.running h x hx) port _ ⟨_, _, hclaim, hport⟩ with ⟨q, hq⟩
  have hfeeds := hord.sound.queues h x hx port q hq
  have hinitial : q.initial = y.emulator.delay := by
    rcases hfeeds.owned with ⟨id, ports, hclaim', hport'⟩
    exact (hseated.claim_unique hclaim' hclaim hport' hport).2
  -- Nothing was observed yet, so nothing was read and nothing is stored.
  have hlatest : q.latest = -1 := by
    have := (hord.recorded.ledger h x hx port).latest q hq
    rw [hs.log] at this
    rw [← Int32.toInt_inj]
    have hone : (-1 : Int32).toInt = -1 := by decide
    have hzero := this (by simp)
    simp only [List.countP_nil] at hzero
    omega
  have hframes : q.frames = ∅ := by
    apply SortedMap.ext_get?
    intro frame
    cases hget : q.frames.get? frame with
    | none => simp
    | some v =>
      rcases hfeeds.backed frame v hget with ⟨_, _, _, _, _, _, hmem⟩
      simp [hs.log] at hmem
  refine ⟨q, hq, ?_, ?_⟩
  . rw [hfeeds.delay, hinitial]
    by_cases ho : o = h
    . subst ho
      rw [hx, Option.some.injEq] at hy
      subst hy
      rw [if_pos hport, if_pos rfl]
    . rw [if_neg ho, if_neg]
      intro hlocal
      exact ho (hseated.owner_unique hy hx hport hlocal)
  . exact FrameQueue.holds_new (by rw [hinitial]) (hs.delay o y hy) hlatest hframes _

/-- A game that has just started is in play. -/
theorem inPlay_of_started (hord : p.Orderly coder) (hcomplete : p.Complete) (hs : p.Started)
    {frames : Nat}
    (hfits : ∀ (h : Nat) (x : Player β), p.players[h]? = some x →
      frames + x.emulator.delay.toInt ≤ Int32.maxValue.toInt)
    (input : Nat → Nat → Port → β)
    : ∃ t : Table β, t.frames = frames ∧ t.input = input ∧
        t.InPlay coder (fun _ => 0) (fun _ => 0) p := by
  have hseated := hord.sound.seated
  rcases hs.console with ⟨c, hc, _, hmembers⟩
  have hstream := fun (h : Nat) (x : Player β) (hx : p.players[h]? = some x) =>
    hs.member hseated hc hx
  refine ⟨{
    consoleId := c.id
    members := c.members
    seats := p.players
    frames := frames
    input := input
    apart := ⟨fun o o' y y' port hy hy' => hseated.owner_unique hy hy', hs.delay, ?_⟩
    fits := ?_
    sameConsole := ?_
    distinct := hseated.distinct
    member := hstream
    seat := fun id m hm => ⟨(hmembers id m hm).1, (hmembers id m hm).2.2⟩ }, rfl, rfl, ?_⟩
  . intro h x hx
    rcases exists_owned hseated hx with ⟨port, hport, _⟩
    exact ⟨port, hport⟩
  . intro h x hx
    have := hfits h x hx
    have hmax : Int32.maxValue.toInt = 0x7fffffff := by decide
    omega
  . intro h x hx
    have := hseated.consoleId h x hx
    rw [Server.consoleId?_of_console? hc, Option.some.injEq] at this
    exact this.symm
  . constructor
    . refine ⟨hseated.consistent, ⟨c, hc, rfl, rfl⟩, ?_⟩
      intro h x i hx hi
      have hlt := hseated.opened h x i hx hi
      rw [← hseated.consistent.length] at hlt
      have hb := List.getElem?_eq_getElem hlt
      exact ⟨_, hb, hs.reader h x i _ hx hi hb⟩
    . exact fun _ => Nat.zero_le _
    . exact fun h x hx => ⟨x, hx⟩
    . intro h x hx
      rcases hs.quiet h x hx with ⟨hflow, houtbox⟩
      unfold Player.flow at hflow
      rw [List.append_eq_nil_iff] at hflow
      rcases hs.inbound h x hx with ⟨⟨inbound, hinbound, hending⟩, hwrites⟩
      refine ⟨x, hx, .refl x, rfl, houtbox ▸ .nil, fun _ => 0, fun _ => 0,
        ⟨⟨inbound.events, ?_⟩, hwrites, hflow.1 ▸ .nil fun _ _ => rfl, ?_⟩, hflow.2 ▸ .nil fun _ _ => rfl⟩
      . rw [hinbound, ← hending]
      . have hreads : p.reads h = fun _ => 0 := by
          funext port
          simp [reads, hs.log]
        rw [hreads]
        apply (hs.stocked hord hcomplete hx input).congr
        intro o _ _ _ _
        simp [supplied]

end Start

section Run

variable {coder : Coder β} {t : Table β} {puts sent : Nat → Nat} {p : Party β} {m : Move β}

omit [Inhabited β] in
theorem known_eq (h : t.InPlay coder puts sent p) {o : Nat} {y : Player β}
    (hy : p.players[o]? = some y) (a : Nat)
    : p.known puts a o = if o = a then puts a else sent o := by
  unfold known
  split
  . next heq => rw [heq]
  . rcases h.player o y hy with ⟨_, _, hk⟩
    have := hk.queued.length
    rw [hy, Option.map_some, Option.getD_some]
    omega

/-- A move of normal play is answered as it should be, and play goes on. -/
theorem inPlay_step (hcoder : coder.Lawful) (h : t.InPlay coder puts sent p)
    (hm : p.Allows t.frames t.input puts m)
    : p.Answers coder t.input m ∧
        ∃ sent', t.InPlay coder (m.counted puts) sent' (p.step coder m) := by
  cases hm with
  | @put a x updates hx hlt hports hupdates =>
    rcases h.put hcoder hx hlt hports hupdates with ⟨hresult, h'⟩
    refine ⟨?_, sent, h'⟩
    intro x' hx'
    rw [hx, Option.some.injEq] at hx'
    rw [← hx']
    exact hresult
  | @get a o x y port frame hx hy hport hframe hknown =>
    rcases h.player o y hy with ⟨z, hz, hk⟩
    rw [hk.remains.seat.localPorts] at hport
    rw [known_eq h hy, hk.remains.emulator, hframe] at hknown
    rcases h.get hx hz hport hframe hknown with ⟨hgives, h'⟩
    refine ⟨?_, sent, h'⟩
    intro x' o' y' hx' hy' hport'
    rw [hx, Option.some.injEq] at hx'
    subst hx'
    rcases h.player o' y' hy' with ⟨z', hz', hk'⟩
    rw [hk'.remains.seat.localPorts] at hport'
    have := t.apart.owner o' o z' z port hz' hz hport' hport
    subst this
    rw [hy, Option.some.injEq] at hy'
    subst hy'
    have hsame : y.buttonsAt (t.input o') port frame = z.buttonsAt (t.input o') port frame := by
      unfold Player.buttonsAt
      rw [hk.remains.emulator]
    rw [hsame]
    exact hgives
  | @transmit a x hx hroom => exact ⟨trivial, h.transmit hroom hx⟩
  | @deliver a n x hx => exact ⟨trivial, sent, h.deliver n (by simp [hx])⟩
  | serve hop => exact ⟨trivial, sent, h.serve hop⟩

omit [Inhabited β] in
theorem undisturbed_of_inPlay (h : t.InPlay coder puts sent p) : p.Undisturbed := by
  constructor
  . rcases h.staged.console with ⟨c, hc, hmembers, _⟩
    refine ⟨c, hc, ?_⟩
    intro id m hm
    rw [hmembers] at hm
    exact (t.seat id m hm).1
  . intro a x hx e he
    rcases h.player a x hx with ⟨y, _, hk⟩
    rcases hk.supplied with ⟨seen, told, hsupplied, hfollows⟩
    cases List.mem_append.1 he with
    | inl he => exact hsupplied.follows.invalid he
    | inr he => exact hfollows.invalid he

theorem inPlay_run (hcoder : coder.Lawful) (h : t.InPlay coder puts sent p) {moves : List (Move β)}
    (hs : Schedules coder t.frames t.input puts p moves) {before after : List (Move β)}
    (hmoves : moves = before ++ after)
    : ∃ puts' sent', t.InPlay coder puts' sent' (p.run coder before) ∧
        Schedules coder t.frames t.input puts' (p.run coder before) after := by
  subst hmoves
  -- Induction on the moves that were made. What is left of the schedule depends on the party that
  -- they lead to.
  induction before generalizing p puts sent with
  | nil => exact ⟨puts, sent, h, hs⟩
  | cons m before ih =>
    rcases (inPlay_step hcoder h hs.1).2 with ⟨sent', h'⟩
    exact ih h' hs.2

end Run

/-- A run of normal play. The numbers of all frames fit into 32 bits. -/
structure NormalPlay (coder : Coder β) (frames : Nat) (input : Nat → Nat → Port → β) (p : Party β)
    (moves : List (Move β)) : Prop where
  started : p.Started
  fits : ∀ (h : Nat) (x : Player β), p.players[h]? = some x →
    frames + x.emulator.delay.toInt ≤ Int32.maxValue.toInt
  scheduled : Schedules coder frames input (fun _ => 0) p moves

/-- All calls in a run are answered as they should be, and nobody is disturbed at any time. -/
def Succeeds (coder : Coder β) (input : Nat → Nat → Port → β) (p : Party β)
    (moves : List (Move β)) : Prop :=
  ∀ before after, moves = before ++ after →
    (p.run coder before).Undisturbed ∧
      ∀ m rest, after = m :: rest → (p.run coder before).Answers coder input m

theorem succeeds_of_lawful {coder : Coder β} (hcoder : coder.Lawful) (testMode : Bool)
    (limit : Option Nat) (ops : List Server.Operation) (setup : List (Move β)) {frames : Nat}
    {input : Nat → Nat → Port → β} {moves : List (Move β)}
    (h : NormalPlay coder frames input
      ((start ((Server.initial testMode limit).run ops)).run coder setup) moves)
    : Succeeds coder input ((start ((Server.initial testMode limit).run ops)).run coder setup)
        moves := by
  have hord := orderly_start coder testMode limit ops
  rcases inPlay_of_started (orderly_run hcoder hord setup)
    (complete_run hcoder hord (complete_start testMode limit ops) setup) h.started h.fits input with
    ⟨t, rfl, rfl, hplay⟩
  intro before after hmoves
  rcases inPlay_run hcoder hplay h.scheduled hmoves with ⟨puts, sent, hplay', hs⟩
  refine ⟨undisturbed_of_inPlay hplay', ?_⟩
  intro m rest hafter
  rw [hafter] at hs
  exact (inPlay_step hcoder hplay' hs.1).1

/--
No frame is lost in normal play. Once a game has started and as long as everybody puts the input of one
frame after the other and reads one frame after the other, never asking for what was not sent yet, all
calls succeed: everybody obtains the default buttons within the delay of a port and then exactly what the
owner of the port has put. Nobody is told that its data is invalid, and nobody is disconnected.
-/
theorem no_frame_lost (testMode : Bool) (limit : Option Nat) (ops : List Server.Operation)
    (frames : Nat)
    : (∀ input setup moves,
        NormalPlay Coder.word frames input
            ((start ((Server.initial testMode limit).run ops)).run Coder.word setup) moves →
          Succeeds Coder.word input
            ((start ((Server.initial testMode limit).run ops)).run Coder.word setup) moves) ∧
      ∀ input setup moves,
        NormalPlay Coder.pad frames input
            ((start ((Server.initial testMode limit).run ops)).run Coder.pad setup) moves →
          Succeeds Coder.pad input
            ((start ((Server.initial testMode limit).run ops)).run Coder.pad setup) moves :=
  ⟨fun _ setup _ h => succeeds_of_lawful Coder.lawful_word testMode limit ops setup h,
    fun _ setup _ h => succeeds_of_lawful Coder.lawful_pad testMode limit ops setup h⟩

omit [Inhabited β] in
theorem all_players {p : Party β} {f : Player β → Bool} (hf : p.players.all f = true) {h : Nat}
    {x : Player β} (hx : p.players[h]? = some x) : f x = true :=
  List.all_eq_true.1 hf x (List.mem_of_getElem? hx)

theorem started_opening
    : ((start ((Server.initial false none).run [])).run Coder.word opening).Started := by
  generalize hp : (start ((Server.initial false none).run [])).run Coder.word opening = p
  have hconsole : (p.server.lobby.console? p.console).map (fun c =>
      (c.status, c.members.entries.map fun e => (e.1, e.2.status, e.2.hasStream)))
      = some (.powered, [(⟨1⟩, .playing, true), (⟨2⟩, .playing, true)]) := by
    rw [← hp]
    decide +kernel
  have hids : p.players.map (·.game.clientId) = [⟨1⟩, ⟨2⟩] := by
    rw [← hp]
    decide +kernel
  have hplayers : (p.players.all fun x => decide (x.game.status = .running) &&
      decide (0 ≤ x.emulator.delay.toInt) && decide (x.game.inbound = some {}) &&
      decide (x.game.hungUp = false) && decide (x.flow p.server = []) && decide (x.outbox = [])) = true := by
    rw [← hp]
    decide +kernel
  have hreaders : (p.server.room.boxes.all (·.hasReader)) = true := by
    rw [← hp]
    decide +kernel
  have hlog : p.log = [] := by
    rw [← hp]
    decide +kernel
  clear hp
  have hplayers := fun (h : Nat) (x : Player UInt32) (hx : p.players[h]? = some x) =>
    all_players hplayers hx
  simp only [Bool.and_eq_true, decide_eq_true_eq] at hplayers
  constructor
  . rw [Option.map_eq_some_iff] at hconsole
    rcases hconsole with ⟨c, hc, heq⟩
    rw [Prod.mk.injEq] at heq
    refine ⟨c, hc, heq.1, ?_⟩
    intro id m hm
    rw [SortedMap.get?_eq_some_iff] at hm
    have hmem := List.mem_map_of_mem (f := fun e : ClientId × Member =>
      (e.1, e.2.status, e.2.hasStream)) hm
    rw [heq.2] at hmem
    simp only [List.mem_cons, Prod.mk.injEq, List.not_mem_nil, or_false] at hmem
    have hid : id ∈ p.players.map (·.game.clientId) := by
      rw [hids]
      rcases hmem with ⟨hid, _⟩ | ⟨hid, _⟩ <;> simp [hid]
    rw [List.mem_map] at hid
    rcases hid with ⟨x, hx, hid⟩
    rcases List.mem_iff_getElem?.1 hx with ⟨h, hx⟩
    have hplaying : m.status = .playing ∧ m.hasStream = true := by
      rcases hmem with ⟨_, h⟩ | ⟨_, h⟩
      . exact h
      . exact h
    exact ⟨hplaying.1, hplaying.2, h, x, hx, hid⟩
  . exact fun h x hx => (hplayers h x hx).1.1.1.1.1
  . exact fun h x hx => (hplayers h x hx).1.1.1.1.2
  . exact fun h x hx => ⟨⟨{}, (hplayers h x hx).1.1.1.2, rfl⟩, (hplayers h x hx).1.1.2⟩
  . exact fun _ _ _ b _ _ hb => List.all_eq_true.1 hreaders b (List.mem_of_getElem? hb)
  . exact fun h x hx => ⟨(hplayers h x hx).1.2, (hplayers h x hx).2⟩
  . exact hlog

theorem schedules_duel
    : Schedules Coder.word 1 (fun _ _ _ => 7) (fun _ => 0)
        ((start ((Server.initial false none).run [])).run Coder.word opening) duel := by
  have hplayer : ∀ {p : Party UInt32} {h : Nat}, (p.players[h]?).isSome = true →
      ∃ x, p.players[h]? = some x := fun hx => Option.isSome_iff_exists.1 hx
  have hget : ∀ {p : Party UInt32} {puts : Nat → Nat} {h o n k : Nat} {port : Port}
      {frame delay : Int32}, (p.players[h]?).isSome = true →
      (p.players[o]?).map (fun y => (y.game.localPorts.contains port, y.emulator.delay))
        = some (true, delay) →
      p.reads h port = n → p.known puts h o = k → frame.toInt = n → n < delay.toInt + k →
      p.Allows 1 (fun _ _ _ => 7) puts (.get h port frame) := by
    intro p puts h o n k port frame delay hx hy hreads hknown hframe hlt
    rcases hplayer hx with ⟨x, hx⟩
    rw [Option.map_eq_some_iff] at hy
    rcases hy with ⟨y, hy, heq⟩
    rw [Prod.mk.injEq] at heq
    refine .get hx hy heq.1 (by rw [hframe, hreads]) ?_
    rw [hframe, heq.2, hknown]
    exact hlt
  generalize hp : (start ((Server.initial false none).run [])).run Coder.word opening = p
  have hfirst : (0 : Int32).toInt = (0 : Nat) ∧ (0 : Nat) < (1 : Int32).toInt + (1 : Nat) := by decide
  have hsecond : (1 : Int32).toInt = (1 : Nat) ∧ (1 : Nat) < (1 : Int32).toInt + (1 : Nat) := by decide
  refine ⟨?_, ?_, ?_, hget (o := 0) ?_ ?_ ?_ ?_ hfirst.1 hfirst.2,
    hget (o := 0) ?_ ?_ ?_ ?_ hsecond.1 hsecond.2, hget (o := 0) ?_ ?_ ?_ ?_ hfirst.1 hfirst.2,
    hget (o := 0) ?_ ?_ ?_ ?_ hsecond.1 hsecond.2, trivial⟩
  . have hseat : (p.players[0]?).map (·.game.localPorts.toList) = some [.one] := by
      rw [← hp]
      decide +kernel
    rw [Option.map_eq_some_iff] at hseat
    rcases hseat with ⟨x, hx, hports⟩
    refine .put hx (by decide) (by rw [hports]; exact .refl _) ?_
    intro u hu
    rw [List.mem_singleton] at hu
    subst hu
    exact ⟨rfl, rfl⟩
  . have hseat : ((p.step Coder.word (.put 0 [⟨.one, 0, 7⟩])).players[0]?).isSome = true := by
      rw [← hp]
      decide +kernel
    have hroom : ((p.step Coder.word (.put 0 [⟨.one, 0, 7⟩])).server.room.boxes.all fun b =>
        decide (b.pending.length < b.capacity)) = true := by
      rw [← hp]
      decide +kernel
    rcases hplayer hseat with ⟨x, hx⟩
    refine .transmit hx ?_
    intro _ _ i b _ _ _ hb
    exact of_decide_eq_true (List.all_eq_true.1 hroom b (List.mem_of_getElem? hb))
  . have hseat : (((p.step Coder.word (.put 0 [⟨.one, 0, 7⟩])).step Coder.word
        (.transmit 0)).players[1]?).isSome = true := by
      rw [← hp]
      decide +kernel
    rcases hplayer hseat with ⟨x, hx⟩
    exact .deliver hx
  all_goals
    rw [← hp]
    decide +kernel

theorem no_frame_lost_duel
    : NormalPlay Coder.word 1 (fun _ _ _ => 7)
          ((start ((Server.initial false none).run [])).run Coder.word opening) duel ∧
        Succeeds Coder.word (fun _ _ _ => 7)
          ((start ((Server.initial false none).run [])).run Coder.word opening) duel := by
  have hdelays : (((start ((Server.initial false none).run [])).run Coder.word
      opening).players.all fun x => decide (x.emulator.delay.toInt ≤ 1)) = true := by decide +kernel
  have hplay : NormalPlay Coder.word 1 (fun _ _ _ => 7)
      ((start ((Server.initial false none).run [])).run Coder.word opening) duel := by
    refine ⟨started_opening, ?_, schedules_duel⟩
    intro h x hx
    have := of_decide_eq_true (all_players hdelays hx)
    have hmax : Int32.maxValue.toInt = 0x7fffffff := by decide
    omega
  exact ⟨hplay, (no_frame_lost false none [] 1).1 _ opening duel hplay⟩

end Party
end PadRelay
