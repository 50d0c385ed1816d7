import PadRelay.Game.Basic

/-!
This module contains the start of a game: an emulator opens its event stream, announces that it is
ready, and waits until the server tells which ports take part.
-/

namespace PadRelay
namespace Game

variable {β : Type}

def readyEvent (g : Game β) : OutgoingEvent :=
  { ready := some { consoleId := g.consoleId.value, clientId := g.clientId.value } }

/--
Announces that this emulator is ready. `answer` is what came of the call that opens the event stream. A
new stream replaces the one before. The transport may have given it up at once.
-/
def ready (g : Game β) (answer : Except RpcFailure Inbound) (hungUp : Bool := false) :
    Outcome β ClientError Unit :=
  match answer with
  | .error failure => { game := g, result := .error (.rpc failure) }
  | .ok inbound =>
    let g := { g with inbound := some inbound, hungUp := hungUp }
    let timed := [.readyWriteStart, .readyWriteFinish]
    match g.writeFault? with
    | some fault => { game := g, result := .error (.rpc fault.failure), timed }
    | none => { game := g, result := .ok (), sent := some g.readyEvent, timed }

def addQueues (localPorts : PortSet) : List ConnectedPort → Queues β →
    Except StartFault (Queues β)
  | [], queues => .ok queues
  | connected :: rest, queues =>
    let port := Port.ofNumber connected.port
    if !port.isController then .error (.noController port)
    else if queues.contains port then .error (.duplicatePort port)
    else
      let queue :=
        if localPorts.contains port then .forLocal connected.delayFrames
        else .forRemote connected.delayFrames
      addQueues localPorts rest (queues.insert port queue)

/--
The queues after the given ports were connected. All local ports have to be connected in the end.
-/
def connect (g : Game β) (ports : List ConnectedPort) : Except StartFault (Queues β) :=
  if maxPorts < ports.length then
    .error (.tooManyPorts ports.length)
  else
    match addQueues g.localPorts ports g.queues with
    | .error fault => .error fault
    | .ok queues =>
      let missing := g.localPorts.toList.filter fun p => !queues.contains p
      if missing = [] then .ok queues else .error (.missingPorts missing)

def start (g : Game β) (e : IncomingEvent) : Game β × Except ClientError Unit :=
  if e.stop.isSome then
    ({ g with status := .terminated }, .error .consoleStopped)
  else
    match e.start with
    | none => (g, .error (.unexpectedStart (.otherEvent e)))
    | some start =>
      if start.consoleId ≤ 0 ∨ start.consoleId ≠ g.consoleId.value then
        (g, .error (.unexpectedStart (.otherConsole start.consoleId)))
      else
        match g.connect start.ports with
        -- No queue is left if the ports are not in order.
        | .error fault => ({ g with queues := ∅ }, .error (.unexpectedStart fault))
        | .ok queues => ({ g with queues, status := .running }, .ok ())

/--
Waits for the game to start. There is no outcome as long as there is nothing to read.
-/
def awaitStart? (g : Game β) : Option (Outcome β ClientError Unit) :=
  match g.inbound with
  | none => some { game := g, result := .error .streamNotOpen }
  | some inbound =>
    let timed := [.startReadStart, .startReadFinish]
    match inbound.read with
    | .waiting => none
    | .ended failure rest =>
      some { game := { g with inbound := some rest }, result := .error (.rpc failure), timed }
    | .event e rest =>
      let r := { g with inbound := some rest }.start e
      some { game := r.1, result := r.2, timed }

def readyAndAwaitStart? (g : Game β) (answer : Except RpcFailure Inbound)
    (hungUp : Bool := false) : Option (Outcome β ClientError Unit) :=
  let announced := g.ready answer hungUp
  match announced.result with
  | .error _ => some announced
  | .ok () =>
    announced.game.awaitStart?.map fun started =>
      { started with sent := announced.sent, timed := announced.timed ++ started.timed }

end Game
end PadRelay
