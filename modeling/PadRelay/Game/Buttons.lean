import PadRelay.Coder
import PadRelay.Game.Basic

/-!
This module contains what an emulator does at each frame: it puts the buttons of its own ports, which
are sent to the others, and gets the buttons of all ports. Buttons of other emulators are read from the
event stream as soon as they are asked for.
-/

namespace PadRelay

structure ButtonUpdate (β : Type) where
  port : Port
  frame : Int32
  buttons : β
deriving DecidableEq, Repr

inductive PutError where
  | noSuchPort (port : Port)
  | rejectedByQueue (port : Port) (cause : QueueError)
  | notEncoded (cause : CoderError)
  | invalidDelay (port : Port) (delay : Int32)
  /-- The buttons were stored, but they could not be written to the event stream. -/
  | notTransmitted (cause : WriteFault)
deriving DecidableEq, Repr

def PutError.label : PutError → String
  | noSuchPort _ => "NoSuchPort"
  | rejectedByQueue _ _ => "RejectedByQueue"
  | notEncoded _ => "FailedToEncode"
  | invalidDelay _ _ => "InternalError"
  | notTransmitted _ => "FailedToTransmit"

def PutError.message : PutError → String
  | noSuchPort port => s!"no queue for port {port.label}"
  | rejectedByQueue port cause => s!"queue for port {port.label} rejected frame: {cause.message}"
  | notEncoded cause => s!"failed to encode buttons: {cause.message}"
  | invalidDelay port delay => s!"invalid delay {delay.toInt} for port {port.label}"
  | notTransmitted cause => s!"failed to transmit key presses: {cause.message}"

inductive KeyFault where
  | unconnectedPort (port : Port)
  | notDecoded (cause : CoderError)
deriving DecidableEq, Repr

def KeyFault.message : KeyFault → String
  | unconnectedPort port => s!"unconnected port {port.label}"
  | notDecoded cause => cause.message

inductive GetError where
  | noSuchPort (port : Port)
  | queue (port : Port) (cause : QueueError)
  | consoleTerminated
  | unexpectedEvent (event : IncomingEvent)
  | invalidButtons (fault : KeyFault)
  | rejectedByQueue (port : Port) (cause : QueueError)
  | rpc (failure : RpcFailure)
deriving DecidableEq

def GetError.label : GetError → String
  | noSuchPort _ => "NoSuchPort"
  | queue _ _ => "Queue"
  | consoleTerminated => "ConsoleTerminated"
  | unexpectedEvent _ => "UnexpectedMessage"
  | invalidButtons _ => "InvalidButtons"
  | rejectedByQueue _ _ => "RejectedByQueue"
  | rpc _ => "Rpc"

def GetError.message : GetError → String
  | noSuchPort port => s!"no queue for port {port.label}"
  | queue port cause => s!"failed to read buttons for port {port.label}: {cause.message}"
  | consoleTerminated => "console terminated"
  | unexpectedEvent event =>
    s!"unexpected non-button event: {MessageType.textOf .incomingEvent event}"
  | invalidButtons fault => s!"invalid buttons: {fault.message}"
  | rejectedByQueue port cause =>
    s!"queue for port {port.label} rejected remote frame: {cause.message}"
  | rpc failure => s!"failed to read event stream: {failure.text}"

namespace Game

variable {β : Type}

/--
The message that tells the others about the buttons of a local port. Its frame is the delayed one.
-/
def keyOf (coder : Coder β) (consoleId : ConsoleId) (delay : Int32) (u : ButtonUpdate β) :
    Except PutError KeyState :=
  match if delay < 0 then none else addFrames? u.frame delay with
  | none => .error (.invalidDelay u.port delay)
  | some frame =>
    match coder.encode u.buttons
        { consoleId := consoleId.value, frame, port := u.port.number } with
    | .error cause => .error (.notEncoded cause)
    | .ok key => .ok key

/--
Stores buttons one update after the other and gives the messages about those of local ports.
-/
def storeUpdates (coder : Coder β) (consoleId : ConsoleId) (localPorts : PortSet) :
    List (ButtonUpdate β) → Queues β → Except PutError (List KeyState) × Queues β
  | [], queues => (.ok [], queues)
  | u :: rest, queues =>
    match queues.get? u.port with
    | none => (.error (.noSuchPort u.port), queues)
    | some queue =>
      match queue.put u.frame u.buttons with
      | .error cause => (.error (.rejectedByQueue u.port cause), queues)
      | .ok stored =>
        let queues := queues.insert u.port stored
        if !localPorts.contains u.port then
          storeUpdates coder consoleId localPorts rest queues
        else
          match keyOf coder consoleId queue.delay u with
          -- The buttons stay stored although nobody is told about them.
          | .error e => (.error e, queues)
          | .ok key =>
            let r := storeUpdates coder consoleId localPorts rest queues
            (r.1.map (key :: ·), r.2)

def put (coder : Coder β) (g : Game β) (updates : List (ButtonUpdate β)) :
    Outcome β PutError Unit :=
  let r := storeUpdates coder g.consoleId g.localPorts updates g.queues
  let g := { g with queues := r.2 }
  match r.1 with
  | .error e => { game := g, result := .error e }
  | .ok [] => { game := g, result := .ok () }
  | .ok keys =>
    let timed := [.keyWriteStart, .keyWriteFinish]
    match g.writeFault? with
    | some cause => { game := g, result := .error (.notTransmitted cause), timed }
    | none => { game := g, result := .ok (), sent := some { keys }, timed }

/--
Stores the buttons of an event of the server, up to the first one that can not be stored.
-/
def storeKeys (coder : Coder β) : List KeyState → Queues β → Except GetError Unit × Queues β
  | [], queues => (.ok (), queues)
  | key :: rest, queues =>
    let port := Port.ofNumber key.port
    match queues.get? port with
    | none => (.error (.invalidButtons (.unconnectedPort port)), queues)
    | some queue =>
      match coder.decode key with
      | .error cause => (.error (.invalidButtons (.notDecoded cause)), queues)
      | .ok buttons =>
        match queue.put key.frame buttons with
        | .error cause => (.error (.rejectedByQueue port cause), queues)
        | .ok stored => storeKeys coder rest (queues.insert port stored)

def mentions (port : Port) (frame : Int32) (keys : List KeyState) : Bool :=
  keys.any fun key => Port.ofNumber key.port = port && key.frame = frame

structure Pumped (β : Type) where
  result : Except GetError Unit
  inbound : Inbound
  queues : Queues β
  reads : Nat
  stopped : Bool := false

/--
Reads events into the queues until the buttons of a port at a frame were among them. There is no result
if they have not arrived and the stream has not ended. `ending` is the end of the stream, and `reads` the
number of reads before.
-/
def pump? (coder : Coder β) (port : Port) (frame : Int32) (ending : Option StreamEnd) :
    (reads : Nat) → List IncomingEvent → Queues β → Option (Pumped β)
  | reads, [], queues =>
    ending.map fun ending => {
      result := .error (.rpc ending.read.failure)
      inbound := { ending := some ending.read.ending }
      queues
      reads := reads + 1 }
  | reads, e :: rest, queues =>
    let finish (result : Except GetError Unit) (queues : Queues β) (stopped : Bool) : Pumped β :=
      { result, inbound := { events := rest, ending }, queues, reads := reads + 1, stopped }
    if e.stop.isSome then
      some (finish (.error .consoleTerminated) queues true)
    else if e.start.isSome ∨ e.invalid ≠ [] then
      some (finish (.error (.unexpectedEvent e)) queues false)
    else
      match storeKeys coder e.keys queues with
      | (.error cause, queues) => some (finish (.error cause) queues false)
      | (.ok (), queues) =>
        if mentions port frame e.keys then some (finish (.ok ()) queues false)
        else pump? coder port frame ending (reads + 1) rest queues

def readPoints (reads : Nat) : List TimingEvent :=
  (List.replicate reads [.keyReadStart, .keyReadFinish]).flatten

variable [Inhabited β]

def getQueued (g : Game β) (port : Port) (frame : Int32) : Except GetError β × Game β :=
  match g.queues.get? port with
  | none => (.error (.noSuchPort port), g)
  | some queue =>
    match queue.get frame with
    | .error cause => (.error (.queue port cause), g)
    | .ok (buttons, queue) => (.ok buttons, { g with queues := g.queues.insert port queue })

/--
Reads the event stream until the buttons of a port at a frame have arrived and gets them.
-/
def getFromStream? (coder : Coder β) (g : Game β) (port : Port) (frame : Int32) :
    Option (Outcome β GetError β) :=
  match g.inbound with
  | none => some { game := g, result := .error (.rpc .streamNotOpen), timed := readPoints 1 }
  | some inbound =>
    (pump? coder port frame inbound.ending 0 inbound.events g.queues).map fun pumped =>
      let status := if pumped.stopped then .terminated else g.status
      let g := { g with inbound := some pumped.inbound, queues := pumped.queues, status }
      let timed := readPoints pumped.reads
      match pumped.result with
      | .error e => { game := g, result := .error e, timed }
      | .ok () =>
        let r := g.getQueued port frame
        { game := r.2, result := r.1, timed }

def getRemote? (coder : Coder β) (g : Game β) (port : Port) (frame : Int32) :
    Option (Outcome β GetError β) :=
  let r := g.getQueued port frame
  match r.1 with
  -- Only if the buttons are not there yet the event stream is read.
  | .error (.queue _ (.timeout _)) => g.getFromStream? coder port frame
  | result => some { game := r.2, result }

/--
Gets the buttons of a port at a frame. There is no outcome as long as they may still arrive. Buttons of a
local port have to be there already.
-/
def get? (coder : Coder β) (g : Game β) (port : Port) (frame : Int32) :
    Option (Outcome β GetError β) :=
  if g.localPorts.contains port then
    let r := g.getQueued port frame
    some { game := r.2, result := r.1 }
  else
    (g.getRemote? coder port frame).map fun o =>
      { o with timed := .remoteRequested :: o.timed ++ [.remoteReturned] }

end Game
end PadRelay
