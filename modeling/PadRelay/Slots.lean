import PadRelay.Port

/-!
This module contains the assignment of an emulator's input channels to the controllers of a started
game: the lowest local port is fed from the lowest channel and so on, and all other connected ports
are fed from the network.
-/

namespace PadRelay

structure Slot where
  present : Bool := false
  remote : Bool := false
  delay : Int32 := 0
  channel : Option Nat := none
deriving DecidableEq, Repr, Inhabited

inductive SlotError where
  | channelCountMismatch (ports channels : Nat)
  | invalidPort (port : Port)
deriving DecidableEq, Repr

def SlotError.label : SlotError → String
  | channelCountMismatch _ _ => "ChannelCountMismatch"
  | invalidPort _ => "InvalidPort"

def SlotError.message : SlotError → String
  | channelCountMismatch ports channels =>
    s!"server assigned {ports} local port(s) but {channels} input channel(s) are present"
  | invalidPort port => s!"port {port.label} is not a controller port"

def emptySlots : Vector Slot 4 :=
  Vector.replicate 4 {}

/--
Fills one slot per port of a list. The second components give what feeds the port.
-/
def fillSlots (feed : Port → Option Nat → Slot) :
    List (Port × Option Nat) → Vector Slot 4 → Except SlotError (Vector Slot 4)
  | [], slots => .ok slots
  | (port, channel) :: rest, slots =>
    match port.slot? with
    | none => .error (.invalidPort port)
    | some i => fillSlots feed rest (slots.set i (feed port channel))

/--
Assigns the present channels to the local ports and marks the remote ones. A port whose delay is not
known has none.
-/
def assignSlots (channels : List Nat) (localPorts remotePorts : PortSet)
    (delay? : Port → Option Int32) : Except SlotError (Vector Slot 4) :=
  if channels.length ≠ localPorts.size then
    .error (.channelCountMismatch localPorts.size channels.length)
  else
    let delay := fun p => (delay? p).getD 0
    let sorted := (channels.mergeSort fun a b => a ≤ b).map some
    match fillSlots (fun p c => { present := true, delay := delay p, channel := c })
        (localPorts.toList.zip sorted) emptySlots with
    | .error e => .error e
    | .ok slots =>
      fillSlots (fun p c => { present := true, remote := true, delay := delay p, channel := c })
        (remotePorts.toList.map fun p => (p, none)) slots

end PadRelay
