import PadRelay.ClientError
import PadRelay.FrameQueue
import PadRelay.Game.Inbound
import PadRelay.Slots
import PadRelay.TimingLog

/-!
This module contains games as an emulator sees them: which ports are its own, the event stream, and the
queues with the buttons of all connected ports.
-/

namespace PadRelay

inductive GameStatus where
  | notYetStarted
  | running
  | terminated
deriving DecidableEq, Repr, Inhabited

def GameStatus.label : GameStatus → String
  | notYetStarted => "NotYetStarted"
  | running => "ConsoleRunning"
  | terminated => "ConsoleTerminated"

/-- Why an event could not be written to the event stream. -/
inductive WriteFault where
  | notOpen
  /-- The transport takes nothing any more. -/
  | closed
deriving DecidableEq, Repr

namespace WriteFault

def message : WriteFault → String
  | notOpen => "event stream not open"
  | closed => "event stream closed"

def failure (fault : WriteFault) : RpcFailure :=
  ⟨.unavailable, fault.message⟩

end WriteFault

abbrev Queues (β : Type) := SortedMap Port (FrameQueue β)

structure Game (β : Type) where
  consoleId : ConsoleId
  clientId : ClientId
  localPorts : PortSet
  /-- The event stream, unless it was never opened or was given up. -/
  inbound : Option Inbound := none
  /-- Whether the transport has given up the other direction of the event stream. -/
  hungUp : Bool := false
  queues : Queues β := ∅
  status : GameStatus := .notYetStarted
deriving DecidableEq

/--
The result of an operation on a game and everything that it has done besides.
-/
structure Outcome (β ε α : Type) where
  game : Game β
  result : Except ε α
  sent : Option OutgoingEvent := none
  timed : List TimingEvent := []

def maxPorts : Nat := 4

namespace Game

variable {β : Type}

def create? (consoleId : ConsoleId) (clientId : ClientId) (ports : List Port) :
    Except GameFault (Game β) :=
  let localPorts := PortSet.ofList ports
  if !consoleId.isValid then .error (.invalidConsole consoleId)
  else if !clientId.isValid then .error (.invalidClient clientId)
  else if maxPorts < ports.length then .error (.tooManyPorts ports.length)
  else if localPorts.size ≠ ports.length then .error .duplicatePorts
  else if localPorts.contains .any then .error .anyPort
  else .ok { consoleId, clientId, localPorts }

def remotePorts (g : Game β) : PortSet :=
  (g.queues.filter fun p _ => !g.localPorts.contains p).map fun _ _ => ()

def delayOf? (g : Game β) (port : Port) : Option Int32 :=
  (g.queues.get? port).map (·.delay)

def cancel (g : Game β) : Game β :=
  { g with inbound := none }

def hangUp (g : Game β) : Game β :=
  { g with hungUp := true }

/--
What is in the way of writing to the event stream.
-/
def writeFault? (g : Game β) : Option WriteFault :=
  if g.inbound.isNone then some .notOpen
  else if g.hungUp then some .closed
  else none

def slots (g : Game β) (channels : List Nat) : Except SlotError (Vector Slot 4) :=
  assignSlots channels g.localPorts g.remotePorts g.delayOf?

def deliver (g : Game β) (events : List IncomingEvent) : Game β :=
  { g with inbound := g.inbound.map (·.deliver events) }

def finishStream (g : Game β) (ending : StreamEnd) : Game β :=
  { g with inbound := g.inbound.map (·.finish ending) }

def text (g : Game β) : String :=
  let localPorts := ", ".intercalate (g.localPorts.toList.map Port.label)
  let parts := [
    s!"console_id: {g.consoleId.debugText}",
    s!"client_id: {g.clientId.debugText}",
    "local_ports: \x7b" ++ localPorts ++ "\x7d",
    s!"connected_ports: {Port.listText g.queues.keys}",
    s!"status: {g.status.label}"]
  "EventStreamHandler \x7b " ++ ", ".intercalate parts ++ " \x7d"

end Game
end PadRelay
