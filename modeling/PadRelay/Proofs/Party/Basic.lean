import PadRelay.Emulator
import PadRelay.Proofs.Game.Buttons
import PadRelay.Proofs.Server.Traffic

/-!
This module contains parties: a server and the emulators that play on one of its consoles. All of them
act in any order, and events are on their way for as long as one likes, but those of one stream arrive
in the order in which they were sent. A party remembers which buttons were stored and obtained.
-/

namespace PadRelay

/-- An emulator that takes part in a game. -/
structure Player (β : Type) where
  emulator : Emulator
  game : Game β
  /-- The position of its event stream on the server, once there is one. -/
  stream : Option Nat := none
  /-- The events that the server has not received yet, oldest first. -/
  outbox : List OutgoingEvent := []

/-- What happens at the queues of an emulator. -/
inductive Observation (β : Type) where
  /-- The queue of a local port of player `h` accepted buttons. -/
  | stored (h : Nat) (u : ButtonUpdate β)
  /-- Player `h` was given buttons. -/
  | obtained (h : Nat) (port : Port) (frame : Int32) (buttons : β)
deriving DecidableEq

namespace Observation

variable {β : Type}

def player : Observation β → Nat
  | stored h _ => h
  | obtained h _ _ _ => h

/-- Whether player `h` was given buttons of a port. -/
def isRead (h : Nat) (port : Port) : Observation β → Bool
  | stored _ _ => false
  | obtained h' port' _ _ => h' = h && port' = port

end Observation

inductive Move (β : Type) where
  | seat (emulator : Emulator) (ports : List Port)
  | ready (h : Nat)
  | await (h : Nat)
  | put (h : Nat) (updates : List (ButtonUpdate β))
  | get (h : Nat) (port : Port) (frame : Int32)
  | cancel (h : Nat)
  /-- The transport gives up what player `h` writes to its stream. -/
  | hangUp (h : Nat)
  /-- The server receives the oldest event that player `h` has sent. -/
  | transmit (h : Nat)
  /-- Player `h` receives the oldest `n` events in the mailbox of its stream. -/
  | deliver (h n : Nat)
  /-- The stream of player `h` ends. -/
  | finish (h : Nat) (ending : StreamEnd)
  /-- Anything else that happens at the server. -/
  | serve (op : Server.Operation)

def Move.actor? {β : Type} : Move β → Option Nat
  | .seat _ _ | .serve _ => none
  | .ready h | .await h | .put h _ | .get h _ _ | .cancel h => some h
  | .hangUp h | .transmit h | .deliver h _ | .finish h _ => some h

/-- A server and those who play on the console at position `console`. -/
structure Party (β : Type) where
  server : Server
  console : Nat
  players : List (Player β) := []
  log : List (Observation β) := []

def Server.fresh (s : Server) : Bool :=
  s.lobby.consoles.all fun e => !e.console.members.contains ⟨s.lobby.clientIds.next⟩

namespace Player

variable {β : Type}

/-- Opens the event stream, which is done once, and announces that this player is ready. -/
def announce (x : Player β) (stream : Nat) : Player β :=
  match x.stream with
  | some _ => x
  | none =>
    let o := x.game.ready (.ok {})
    { x with game := o.game, stream := some stream, outbox := x.outbox ++ o.sent.toList }

def await (x : Player β) : Player β :=
  match x.game.awaitStart? with
  | none => x
  | some o => { x with game := o.game }

def ownsAll (x : Player β) (updates : List (ButtonUpdate β)) : Bool :=
  updates.all fun u => x.game.localPorts.contains u.port

def put (coder : Coder β) (x : Player β) (updates : List (ButtonUpdate β)) : Player β :=
  if x.ownsAll updates then
    let o := x.game.put coder updates
    { x with game := o.game, outbox := x.outbox ++ o.sent.toList }
  else
    x

/-- The updates that the queues of this player accept from `put`. -/
def accepted (coder : Coder β) (x : Player β) (updates : List (ButtonUpdate β)) :
    List (ButtonUpdate β) :=
  if x.ownsAll updates then
    Game.accepted coder x.game.consoleId x.game.localPorts updates x.game.queues
  else
    []

def get [Inhabited β] (coder : Coder β) (x : Player β) (port : Port) (frame : Int32) : Player β :=
  match x.game.get? coder port frame with
  | none => x
  | some o => { x with game := o.game }

/-- The buttons that this player is given by `get`. -/
def given [Inhabited β] (coder : Coder β) (x : Player β) (port : Port) (frame : Int32) : Option β :=
  (x.game.get? coder port frame).bind fun o => o.result.toOption

def cancel (x : Player β) : Player β :=
  { x with game := x.game.cancel }

def hangUp (x : Player β) : Player β :=
  { x with game := x.game.hangUp }

def finish (x : Player β) (ending : StreamEnd) : Player β :=
  { x with game := x.game.finishStream ending }

/-- The event that this player transmits next, after the stream that it is transmitted on. -/
def outgoing? (x : Player β) : Option (Nat × OutgoingEvent) :=
  match x.stream, x.outbox with
  | some i, e :: _ => some (i, e)
  | _, _ => none

def transmitted (x : Player β) : Player β :=
  match x.outgoing? with
  | none => x
  | some _ => { x with outbox := x.outbox.tail }

/-- Receives the oldest `n` events that the server holds for this player. -/
def deliver (x : Player β) (s : Server) (n : Nat) : Player β :=
  match x.stream with
  | none => x
  | some i => { x with game := x.game.deliver (s.take i n).1 }

def seated? (e : Emulator) (answer : PlugResponse) : Option (Player β) :=
  match e.plugged (.ok answer) with
  | (.ok .success, e) =>
    match e.newGame with
    | .ok game => some { emulator := e, game }
    | .error _ => none
  | _ => none

def operation? (x : Player β) : Move β → Option Server.Operation
  | .ready _ => if x.stream = none then some .openStream else none
  | .transmit _ => x.outgoing?.map fun r => .receive r.1 r.2
  | .deliver _ n => x.stream.map fun i => .take i n
  | _ => none

def act [Inhabited β] (coder : Coder β) (s : Server) (x : Player β) : Move β → Player β
  | .ready _ => x.announce s.streams.length
  | .await _ => x.await
  | .put _ updates => x.put coder updates
  | .get _ port frame => x.get coder port frame
  | .cancel _ => x.cancel
  | .hangUp _ => x.hangUp
  | .transmit _ => x.transmitted
  | .deliver _ n => x.deliver s n
  | .finish _ ending => x.finish ending
  | .seat _ _ | .serve _ => x

/-- What happens at the queues of this player, who is player `h`, in a move of its own. -/
def observed [Inhabited β] (coder : Coder β) (x : Player β) (h : Nat) :
    Move β → List (Observation β)
  | .put _ updates => (x.accepted coder updates).map (.stored h)
  | .get _ port frame => ((x.given coder port frame).map (.obtained h port frame)).toList
  | _ => []

end Player

namespace Party

variable {β : Type}

def start (s : Server) : Party β :=
  { server := s, console := s.lobby.consoles.length }

def usesStream (p : Party β) (i : Nat) : Bool :=
  p.players.any fun x => x.stream = some i

/--
Whether others may do something at the server. They neither act for a player nor bind a stream of their
own to the console of the party, and no client is given an identifier that is in use.
-/
def permits (p : Party β) : Server.Operation → Bool
  | .plugController _ => p.server.fresh
  | .receive i e =>
    !p.usesStream i && ((p.server.receive i e).boundTo i).all fun b => b.console ≠ p.console
  | .take i _ => !p.usesStream i
  | _ => true

def request? (p : Party β) (e : Emulator) (ports : List Port) : Option PlugRequest :=
  match e.plugRequest ports with
  | .error _ => none
  | .ok request =>
    if p.server.fresh ∧ (p.server.lobby.lookup? ⟨request.consoleId⟩).map (·.1) = some p.console then
      some request
    else
      none

/-- The player who moves, after its position. -/
def mover? (p : Party β) (m : Move β) : Option (Nat × Player β) :=
  m.actor?.bind fun h => (p.players[h]?).map fun x => (h, x)

def operation? (p : Party β) (m : Move β) : Option Server.Operation :=
  match m with
  | .seat e ports => (p.request? e ports).map .plugController
  | .serve op => if p.permits op then some op else none
  | m => (p.mover? m).bind fun r => r.2.operation? m

def served (p : Party β) (m : Move β) : Server :=
  match p.operation? m with
  | none => p.server
  | some op => p.server.step op

def newcomer? (p : Party β) : Move β → Option (Player β)
  | .seat e ports =>
    (p.request? e ports).bind fun request =>
      Player.seated? e (p.server.plugController request).1
  | _ => none

variable [Inhabited β]

def roster (coder : Coder β) (p : Party β) (m : Move β) : List (Player β) :=
  match m.actor? with
  | some h => p.players.modify h (·.act coder p.server m)
  | none => p.players ++ (p.newcomer? m).toList

def observed (coder : Coder β) (p : Party β) (m : Move β) : List (Observation β) :=
  match p.mover? m with
  | none => []
  | some (h, x) => x.observed coder h m

/-- The party after a move. A move that is not possible changes nothing. -/
def step (coder : Coder β) (p : Party β) (m : Move β) : Party β where
  server := p.served m
  console := p.console
  players := p.roster coder m
  log := p.log ++ p.observed coder m

def run (coder : Coder β) (p : Party β) (moves : List (Move β)) : Party β :=
  moves.foldl (step coder) p

/-- How often player `h` was given buttons of a port. -/
def reads (p : Party β) (h : Nat) (port : Port) : Nat :=
  p.log.countP (·.isRead h port)

end Party
end PadRelay
