import PadRelay.Ids
import PadRelay.Mailroom
import PadRelay.Message.Status
import PadRelay.Port

/-!
This module contains the members of a console: the emulators that have controllers plugged into it, as
the server sees them. A member owns its ports for good. Once its event stream is known it holds the
mailbox of that stream.
-/

namespace PadRelay

inductive MemberStatus where
  /-- Plugged in, but its event stream is not known yet. -/
  | created
  | ready
  | playing
  /-- Its event stream ended or the console was stopped. -/
  | done
deriving DecidableEq, Repr, Inhabited

def MemberStatus.label : MemberStatus → String
  | created => "Created"
  | ready => "Ready"
  | playing => "Playing"
  | done => "Done"

structure Member where
  ports : PortSet
  /-- The number of frames by which the input of its ports is delayed. -/
  delay : Int32
  status : MemberStatus := .created
  mailbox : Option Nat := none
deriving DecidableEq

def refusal (consoleId : Int64) (port : Port) (status : InvalidDataStatus) : InvalidData :=
  { consoleId, port := port.number, status := Enumeration.number status }

def refusalEvent (r : InvalidData) : IncomingEvent :=
  { invalid := [r] }

namespace Member

def hasStream (m : Member) : Bool :=
  m.mailbox.isSome

def owns (m : Member) (p : Port) : Bool :=
  m.ports.contains p

def bind? (m : Member) (mailbox : Nat) : Option Member :=
  match m.mailbox with
  -- A member that holds a mailbox takes no other.
  | some _ => none
  | none => some { m with mailbox := some mailbox }

def markReady (m : Member) : Member :=
  if m.status = .created then { m with status := .ready } else m

/--
The refusal of the first key that names another console or a port that the member does not own.
-/
def firstRefusal? (m : Member) (consoleId : ConsoleId) : List KeyState → Option InvalidData
  | [] => none
  | key :: rest =>
    let port := Port.ofNumber key.port
    if key.consoleId ≠ consoleId.value then some (refusal key.consoleId port .invalidConsole)
    else if !m.owns port then some (refusal key.consoleId port .invalidPort)
    else m.firstRefusal? consoleId rest

def closeStream (m : Member) (room : Mailroom) : Member × Mailroom :=
  match m.mailbox with
  | none => (m, room)
  | some i => ({ m with mailbox := none }, room.closeSender i)

def leave (m : Member) (room : Mailroom) : Member × Mailroom :=
  let r := m.closeStream room
  ({ r.1 with status := .done }, r.2)

def post (m : Member) (e : IncomingEvent) (room : Mailroom) : Bool × Member × Mailroom :=
  match m.mailbox with
  | none => (false, m, room)
  | some i =>
    match room.post i e with
    | (.delivered, room) => (true, m, room)
    | (.gone, room) => (false, m, room)
    -- A member whose mailbox is full does not keep up with the game and is disconnected.
    | (.full, room) => (false, m.leave room)

end Member
end PadRelay
