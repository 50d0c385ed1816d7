import PadRelay.Proofs.Party.Starting
import PadRelay.Proofs.Server.Readiness

/-!
This module contains parties whose players put the buttons of any ports, be they their own or not. Nobody
is told about buttons of ports of others, so the bookkeeping of parties stays in order. As long as a
player has no queues neither putting nor getting does anything.
-/

namespace PadRelay

variable {β : Type}

/-- What happens in a party: a move, or player `h` puts buttons of any ports. -/
inductive Turn (β : Type) where
  | move (m : Move β)
  | put (h : Nat) (updates : List (ButtonUpdate β))

/-- Puts buttons of any ports. -/
def Player.store (coder : Coder β) (x : Player β) (updates : List (ButtonUpdate β)) : Player β :=
  let o := x.game.put coder updates
  { x with game := o.game, outbox := x.outbox ++ o.sent.toList }

namespace Party

section Turn

variable [Inhabited β] (coder : Coder β)

def turn (p : Party β) : Turn β → Party β
  | .move m => p.step coder m
  | .put h updates => { p with players := p.players.modify h (·.store coder updates) }

def play (p : Party β) (turns : List (Turn β)) : Party β :=
  turns.foldl (turn coder) p

end Turn

/-- What a turn does at the server. -/
def effect? (p : Party β) : Turn β → Option Server.Operation
  | .move m => p.operation? m
  | .put _ _ => none

/-- What a number of turns do at the server. -/
def operations [Inhabited β] (coder : Coder β) (p : Party β) :
    List (Turn β) → List Server.Operation
  | [] => []
  | t :: turns => (p.effect? t).toList ++ (p.turn coder t).operations coder turns

end Party

section Idle

variable {coder : Coder β}

theorem Game.put_of_empty (coder : Coder β) {g : Game β} (hempty : g.queues = ∅)
    (updates : List (ButtonUpdate β))
    : (g.put coder updates).game = g ∧ (g.put coder updates).sent = none := by
  have hsame : (storeUpdates coder g.consoleId g.localPorts updates g.queues).2 = g.queues := by
    rw [hempty]
    exact storeUpdates_empty _ _ _
  refine ⟨by rw [put_game, hsame], ?_⟩
  unfold put
  rw [hempty]
  cases updates with
  | nil => rfl
  | cons u rest => rfl

theorem Game.get?_of_empty [Inhabited β] {g : Game β} (hempty : g.queues = ∅) {port : Port}
    {frame : Int32} {o : Outcome β GetError β} (ho : g.get? coder port frame = some o)
    : o.game = g := by
  have hqueued : g.getQueued port frame = (.error (.noSuchPort port), g) := by
    unfold getQueued
    rw [hempty]
    rfl
  unfold get? getRemote? at ho
  dsimp at ho
  simp only [hqueued] at ho
  split at ho
  . rw [Option.some.injEq] at ho
    rw [← ho]
  . rw [Option.map_some, Option.some.injEq] at ho
    rw [← ho]

theorem Player.store_of_empty {x : Player β} (hempty : x.game.queues = ∅)
    (updates : List (ButtonUpdate β)) : x.store coder updates = x := by
  rcases Game.put_of_empty coder hempty updates with ⟨hgame, hsent⟩
  unfold store
  dsimp
  rw [hgame, hsent, Option.toList_none, List.append_nil]

/-- The operation neither sends anything on stream `i` nor looks into its mailbox. -/
def Server.Operation.Spares (op : Option Server.Operation) (i : Nat) : Prop :=
  (∀ e, op ≠ some (.receive i e)) ∧ ∀ n, op ≠ some (.take i n)

/--
What a turn can make of a player who has no queues, and what it does at the server meanwhile.
-/
inductive Player.Idles (s : Server) (x : Player β) : Option Server.Operation → Player β → Prop
  | rest {op : Option Server.Operation} :
    (∀ i, x.stream = some i → Server.Operation.Spares op i) → Idles s x op x
  | ready :
    x.stream = none →
    Idles s x (some .openStream)
      { x with
        game := x.game.opened {} false
        stream := some s.streams.length
        outbox := x.outbox ++ [x.game.readyEvent] }
  | await {o : Outcome β ClientError Unit} :
    x.game.awaitStart? = some o → Idles s x none { x with game := o.game }
  | cancel : Idles s x none { x with game := x.game.cancel }
  | hangUp : Idles s x none { x with game := x.game.hangUp }
  | transmit {i : Nat} {e : OutgoingEvent} {rest : List OutgoingEvent} :
    x.stream = some i → x.outbox = e :: rest →
    Idles s x (some (.receive i e)) { x with outbox := rest }
  | deliver {i n : Nat} :
    x.stream = some i →
    Idles s x (some (.take i n)) { x with game := x.game.deliver (s.take i n).1 }
  | finish {ending : StreamEnd} : Idles s x none { x with game := x.game.finishStream ending }

theorem Server.Operation.spares_none (i : Nat) : Spares none i :=
  ⟨fun _ => by simp, fun _ => by simp⟩

theorem Player.idles_act [Inhabited β] (coder : Coder β) (s : Server) {x : Player β}
    (hempty : x.game.queues = ∅) (m : Move β)
    : x.Idles s (x.operation? m) (x.act coder s m) := by
  have hidle : x.Idles s none x := .rest fun i _ => Server.Operation.spares_none i
  unfold act operation?
  cases m with
  | ready h =>
    dsimp
    unfold announce
    cases hstream : x.stream with
    | none => exact .ready hstream
    | some i => exact hidle
  | await h =>
    dsimp
    unfold Player.await
    split
    . exact hidle
    . next o ho => exact .await ho
  | put h updates =>
    have hput : x.put coder updates = x := by
      unfold Player.put
      split
      . exact store_of_empty hempty updates
      . rfl
    dsimp
    rw [hput]
    exact hidle
  | get h port frame =>
    have hget : x.get coder port frame = x := by
      unfold Player.get
      split
      . rfl
      . next o ho => rw [Game.get?_of_empty hempty ho]
    dsimp
    rw [hget]
    exact hidle
  | cancel h => exact .cancel
  | hangUp h => exact .hangUp
  | transmit h =>
    dsimp
    unfold transmitted
    cases hout : x.outgoing? with
    | none => exact hidle
    | some r =>
      unfold outgoing? at hout
      split at hout
      . next hstream houtbox =>
        rw [Option.some.injEq] at hout
        subst hout
        rw [houtbox]
        exact .transmit hstream houtbox
      . simp at hout
  | deliver h n =>
    dsimp
    unfold Player.deliver
    split
    . next hnone =>
      simp only [hnone, Option.map_none]
      exact hidle
    . next i hi =>
      have hop : x.stream.map (fun i => Server.Operation.take i n) = some (.take i n) := by
        rw [hi]
        rfl
      rw [hop]
      exact .deliver hi
  | finish h ending => exact .finish
  | seat e ports => exact hidle
  | serve op => exact hidle

end Idle

section Status

theorem Game.start_notYetStarted {g : Game β} {e : IncomingEvent}
    (h : (g.start e).1.status = .notYetStarted) : g.status = .notYetStarted := by
  unfold start at h
  repeat' split at h
  all_goals first | exact h | simp at h

theorem Game.awaitStart?_notYetStarted {g : Game β} {o : Outcome β ClientError Unit}
    (ho : g.awaitStart? = some o) (h : o.game.status = .notYetStarted)
    : g.status = .notYetStarted := by
  unfold awaitStart? at ho
  split at ho
  . rw [Option.some.injEq] at ho
    rw [← ho] at h
    exact h
  . dsimp at ho
    split at ho
    . simp at ho
    . rw [Option.some.injEq] at ho
      rw [← ho] at h
      exact h
    . rw [Option.some.injEq] at ho
      rw [← ho] at h
      exact start_notYetStarted (g := { g with inbound := some _ }) h

theorem Player.Acts.notYetStarted [Inhabited β] {coder : Coder β} {s : Server} {h : Nat}
    {x x' : Player β} {m : Move β} {obs : List (Observation β)} (ha : x.Acts coder s h m x' obs)
    (hwaits : x'.game.status = .notYetStarted) : x.game.status = .notYetStarted := by
  cases ha with
  | await ho => exact Game.awaitStart?_notYetStarted ho hwaits
  | put howns =>
    rw [Game.put_game] at hwaits
    exact hwaits
  | get ho =>
    rcases Game.status_get? ho with heq | heq
    . rw [← heq]
      exact hwaits
    . dsimp at hwaits
      simp [heq] at hwaits
  | _ => exact hwaits

end Status

namespace Party

section Effect

variable {p : Party β} {h i : Nat} {x : Player β} {m : Move β}

theorem usesStream_of_mem (hx : p.players[h]? = some x) (hi : x.stream = some i)
    : p.usesStream i = true :=
  List.any_eq_true.2 ⟨x, List.mem_of_getElem? hx, decide_eq_true hi⟩

/-- What others do at the server spares the stream of a player. -/
theorem spares_of_mover? (hseated : Seated p.server p.console p.players)
    (hx : p.players[h]? = some x) (hother : ∀ a y, p.mover? m = some (a, y) → a ≠ h)
    (hi : x.stream = some i) : Server.Operation.Spares (p.operation? m) i := by
  constructor
  . intro e heq
    cases operates_of_operation? heq with
    | @transmit a _ y _ _ hy hj _ =>
      have hsame := hseated.separate a h y x i hy hx hj hi
      exact hother a y (mover?_eq_some_iff.2 ⟨rfl, hy⟩) hsame
    | serve hpermits =>
      unfold permits at hpermits
      simp [usesStream_of_mem hx hi] at hpermits
  . intro n heq
    cases operates_of_operation? heq with
    | @deliver a _ _ y hy hj =>
      have hsame := hseated.separate a h y x i hy hx hj hi
      exact hother a y (mover?_eq_some_iff.2 ⟨rfl, hy⟩) hsame
    | serve hpermits =>
      unfold permits at hpermits
      simp [usesStream_of_mem hx hi] at hpermits

theorem operation?_of_mover? (hm : p.mover? m = some (h, x)) : p.operation? m = x.operation? m := by
  unfold operation?
  split
  . simp [mover?, Move.actor?] at hm
  . simp [mover?, Move.actor?] at hm
  . rw [hm]
    rfl

end Effect

section Players

variable [Inhabited β] {coder : Coder β} {p : Party β} {t : Turn β} {h : Nat} {x x' : Player β}

theorem server_turn (coder : Coder β) (p : Party β) (t : Turn β)
    : (p.turn coder t).server = p.server.run (p.effect? t).toList := by
  cases t with
  | put h updates => rfl
  | move m =>
    show p.served m = p.server.run (p.operation? m).toList
    unfold served
    split <;> simp_all

@[simp]
theorem console_turn (coder : Coder β) (p : Party β) (t : Turn β)
    : (p.turn coder t).console = p.console := by
  cases t <;> rfl

theorem idles_of_turn (hseated : Seated p.server p.console p.players)
    (hx : p.players[h]? = some x) (hx' : (p.turn coder t).players[h]? = some x')
    (hempty : x.game.queues = ∅) : x.Idles p.server (p.effect? t) x' := by
  cases t with
  | put a updates =>
    rcases getElem?_modify_cases hx' with ⟨y, hy, hcases⟩
    rw [hx, Option.some.injEq] at hy
    subst hy
    have hsame : x' = x := by
      rcases hcases with ⟨_, rfl⟩ | ⟨_, rfl⟩
      . exact Player.store_of_empty hempty updates
      . rfl
    rw [hsame]
    exact .rest fun i _ => Server.Operation.spares_none i
  | move m =>
    replace hx' : (p.roster coder m)[h]? = some x' := hx'
    unfold roster at hx'
    unfold effect?
    dsimp
    split at hx'
    . next a ha =>
      rcases getElem?_modify_cases hx' with ⟨y, hy, hcases⟩
      rw [hx, Option.some.injEq] at hy
      subst hy
      rcases hcases with ⟨rfl, rfl⟩ | ⟨hne, rfl⟩
      . rw [operation?_of_mover? (mover?_eq_some_iff.2 ⟨ha, hx⟩)]
        exact Player.idles_act coder p.server hempty m
      . refine .rest fun i hi => spares_of_mover? hseated hx ?_ hi
        intro b y hb
        rw [mover?_eq_some_iff, ha, Option.some.injEq] at hb
        exact hb.1 ▸ hne
    . next hnone =>
      have hlt := (List.getElem?_eq_some_iff.1 hx).1
      rw [List.getElem?_append_left hlt, hx, Option.some.injEq] at hx'
      subst hx'
      refine .rest fun i hi => spares_of_mover? hseated hx ?_ hi
      intro a y ha
      rw [mover?_eq_some_iff, hnone] at ha
      simp at ha

/-- Who sits at a place after a turn sat there before, or has just taken a seat. -/
theorem players_turn_cases (hx' : (p.turn coder t).players[h]? = some x')
    : (∃ x, p.players[h]? = some x ∧ x.Remains x' ∧ (x.stream = none ∨ x'.stream = x.stream) ∧
          (x'.game.status = .notYetStarted → x.game.status = .notYetStarted)) ∨
        ∃ m, t = .move m ∧ p.newcomer? m = some x' := by
  cases t with
  | put a updates =>
    left
    rcases getElem?_modify_cases hx' with ⟨x, hx, ⟨_, rfl⟩ | ⟨_, rfl⟩⟩
    . refine ⟨x, hx, ?_⟩
      unfold Player.store
      dsimp
      rw [Game.put_game]
      exact ⟨⟨rfl, rfl, rfl, rfl⟩, Or.inr rfl, id⟩
    . exact ⟨x', hx, .refl x', Or.inr rfl, id⟩
  | move m =>
    cases yields_step hx' with
    | rest hx _ => exact Or.inl ⟨x', hx, .refl x', Or.inr rfl, id⟩
    | seat _ _ hnew => exact Or.inr ⟨m, rfl, hnew⟩
    | @move x _ hx _ hacts =>
      refine Or.inl ⟨x, hx, hacts.remains, ?_, hacts.notYetStarted⟩
      rcases hacts.stream with heq | ⟨_, _, hnone, _⟩
      . exact Or.inr heq
      . exact Or.inl hnone

theorem remains_turn (coder : Coder β) (t : Turn β) (hx : p.players[h]? = some x)
    : ∃ x', (p.turn coder t).players[h]? = some x' ∧ x.Remains x' := by
  cases t with
  | move m => exact remains_step coder m hx
  | put a updates =>
    show ∃ x', (p.players.modify a (·.store coder updates))[h]? = some x' ∧ x.Remains x'
    rw [List.getElem?_modify, hx]
    refine ⟨_, rfl, ?_⟩
    split
    . unfold Player.store
      dsimp
      rw [Game.put_game]
      exact ⟨rfl, rfl, rfl, rfl⟩
    . exact .refl x

theorem flow_turn (hseated : Seated p.server p.console p.players)
    (hx' : (p.turn coder t).players[h]? = some x')
    : (∃ x, p.players[h]? = some x ∧
        List.Sublist (x'.flow (p.turn coder t).server)
          (x.flow p.server ++ x'.dues p.server (p.effect? t))) ∨
      ∃ m, t = .move m ∧ p.newcomer? m = some x' ∧ x'.flow (p.turn coder t).server = [] := by
  cases t with
  | put a updates =>
    left
    have hflow : ∀ x : Player β, (x.store coder updates).flow p.server = x.flow p.server := by
      intro x
      unfold Player.store Player.flow Player.mail Game.unread
      dsimp
      rw [Game.put_game]
    rcases getElem?_modify_cases hx' with ⟨x, hx, ⟨_, rfl⟩ | ⟨_, rfl⟩⟩
    . refine ⟨x, hx, ?_⟩
      rw [← hflow x]
      exact List.sublist_append_left _ _
    . exact ⟨x', hx, List.sublist_append_left _ _⟩
  | move m =>
    rcases flow_step hseated hx' with ⟨x, hx, _, hflow⟩ | ⟨hnew, hnil⟩
    . exact Or.inl ⟨x, hx, hflow⟩
    . exact Or.inr ⟨m, rfl, hnew, hnil⟩

theorem server_play (coder : Coder β) (p : Party β) (turns : List (Turn β))
    : (p.play coder turns).server = p.server.run (p.operations coder turns) := by
  induction turns generalizing p with
  | nil => rfl
  | cons t turns ih =>
    show ((p.turn coder t).play coder turns).server = _
    rw [ih, server_turn, operations, Server.run_append]

theorem play_append (coder : Coder β) (p : Party β) (turns turns' : List (Turn β))
    : p.play coder (turns ++ turns') = (p.play coder turns).play coder turns' := by
  simp [play]

theorem operations_append (coder : Coder β) (p : Party β) (turns turns' : List (Turn β))
    : p.operations coder (turns ++ turns')
        =
      p.operations coder turns ++ (p.play coder turns).operations coder turns' := by
  induction turns generalizing p with
  | nil => rfl
  | cons t turns ih =>
    rw [List.cons_append, operations, operations, ih, List.append_assoc]
    rfl

end Players

/-- The bookkeeping of a party: who plays, who holds which stream, and whose stream names whom. -/
structure Convened (p : Party β) : Prop where
  seated : Seated p.server p.console p.players
  announces : Announces p.players
  linked : p.server.Linked p.console
  valid : ∀ (h : Nat) (x : Player β), p.players[h]? = some x → x.game.consoleId.isValid = true

section Convened

variable {p : Party β}

theorem convened_start (testMode : Bool) (limit : Option Nat) (ops : List Server.Operation)
    : (start (β := β) ((Server.initial testMode limit).run ops)).Convened where
  seated := seated_start testMode limit ops
  announces h x hx := by simp [start] at hx
  linked c id m hc := by simp [start, Lobby.console?] at hc
  valid h x hx := by simp [start] at hx

theorem valid_of_seated? {e : Emulator} {answer : PlugResponse} {x : Player β}
    (h : Player.seated? e answer = some x) : x.game.consoleId.isValid = true := by
  unfold Player.seated? at h
  split at h
  . split at h
    . next game hgame =>
      rw [Option.some.injEq] at h
      rw [← h]
      unfold Emulator.newGame at hgame
      split at hgame
      . next hvalid =>
        split at hgame
        . simp at hgame
        . next hcreate =>
          rw [Except.ok.injEq] at hgame
          subst hgame
          unfold Game.create? at hcreate
          dsimp at hcreate
          repeat' split at hcreate
          all_goals simp at hcreate
          rw [Bool.and_eq_true] at hvalid
          rw [← hcreate]
          exact hvalid.1
      . simp at hgame
    . simp at h
  . simp at h

variable [Inhabited β] {coder : Coder β}

theorem linked_turn (hconvened : p.Convened) (t : Turn β)
    : (p.turn coder t).server.Linked (p.turn coder t).console := by
  rw [server_turn, console_turn]
  cases t with
  | put h updates => exact hconvened.linked
  | move m =>
    unfold effect?
    dsimp
    cases hop : p.operation? m with
    | none => exact hconvened.linked
    | some op =>
      have hadmits := admits_of_operates hconvened.seated hconvened.announces
        (operates_of_operation? hop)
      exact Server.step_of_perform (P := fun s => s.Linked p.console)
        (fun _ _ h hfresh hl => hl.perform h hfresh) hconvened.seated.consistent
        (fun hserved => Server.claim?_of_fresh (hadmits.fresh hserved)) hconvened.linked

theorem seated_turn (hconvened : p.Convened) (t : Turn β)
    : Seated (p.turn coder t).server (p.turn coder t).console (p.turn coder t).players := by
  cases t with
  | move m => exact seated_step coder hconvened.seated hconvened.announces m
  | put h updates =>
    apply hconvened.seated.modify
    intro x _
    unfold Player.store
    dsimp
    rw [Game.put_game]
    exact ⟨⟨rfl, rfl, rfl, rfl⟩, Or.inl rfl⟩

theorem announces_turn (hconvened : p.Convened) (t : Turn β)
    : Announces (p.turn coder t).players := by
  cases t with
  | move m => exact announces_step hconvened.seated hconvened.announces m
  | put a updates =>
    intro h x' hx' e he ready hready
    rcases getElem?_modify_cases hx' with ⟨x, hx, ⟨_, rfl⟩ | ⟨_, rfl⟩⟩
    . unfold Player.store at he ⊢
      dsimp at he ⊢
      rw [Game.put_game]
      cases List.mem_append.1 he with
      | inl he => exact hconvened.announces h x hx e he ready hready
      | inr he =>
        rw [Option.mem_toList] at he
        rcases Game.put_sent he with ⟨keys, _, rfl⟩
        simp at hready
    . exact hconvened.announces h x' hx e he ready hready

theorem convened_turn (coder : Coder β) (hconvened : p.Convened) (t : Turn β)
    : (p.turn coder t).Convened where
  seated := seated_turn hconvened t
  announces := announces_turn hconvened t
  linked := linked_turn hconvened t
  valid h x' hx' := by
    rcases players_turn_cases hx' with ⟨x, hx, hremains, _⟩ | ⟨m, _, hnew⟩
    . rw [hremains.seat.consoleId]
      exact hconvened.valid h x hx
    . rcases newcomer?_eq_some hnew with ⟨_, _, _, _, _, hseated⟩
      exact valid_of_seated? hseated

end Convened

end Party

end PadRelay
