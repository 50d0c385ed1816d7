import PadRelay.Console.Allocation
import PadRelay.Member

/-!
This module contains consoles: who plays on them, which ports they have, and how events get from one
member to the others.
-/

namespace PadRelay

inductive ConsoleStatus where
  | created
  /-- The game is running and the ports are settled. -/
  | powered
  | done
deriving DecidableEq, Repr, Inhabited

def ConsoleStatus.label : ConsoleStatus → String
  | created => "Created"
  | powered => "Powered"
  | done => "Done"

structure Console where
  id : ConsoleId
  title : String := ""
  romName : String := ""
  /-- The hash of the game image that all members have to use, empty if it does not matter. -/
  romHash : String := ""
  status : ConsoleStatus := .created
  members : SortedMap ClientId Member := ∅
deriving DecidableEq

inductive PlugError where
  | romMismatch (expected actual : String)
  | noPortsRequested
  | rejected (verdicts : List (Port × PortVerdict))
  | consoleStarted (id : ConsoleId)
deriving DecidableEq

def PlugError.label : PlugError → String
  | romMismatch _ _ => "RomMismatch"
  | noPortsRequested => "NoPortsRequested"
  | rejected _ => "Rejected"
  | consoleStarted _ => "ConsoleStarted"

def PlugError.message : PlugError → String
  | romMismatch expected actual =>
    s!"rom md5 mismatch: console has {expected}, client sent {actual}"
  | noPortsRequested => "no ports requested"
  | rejected _ => "port request rejected"
  | consoleStarted id => s!"console {id.text} already started"

inductive StartError where
  | alreadyStarted (id : ConsoleId)
  | membersNotReady (id : ConsoleId)
deriving DecidableEq

def StartError.label : StartError → String
  | alreadyStarted _ => "AlreadyStarted"
  | membersNotReady _ => "ClientsNotReady"

def StartError.message : StartError → String
  | alreadyStarted id => s!"console {id.text} already started"
  | membersNotReady id => s!"not all clients of console {id.text} are ready"

structure Plugged where
  clientId : ClientId
  ports : List Port
  console : Console
  /-- The counter after the identifier of the new member was drawn. -/
  ids : IdSource

namespace Console

def occupied (c : Console) : PortSet :=
  .ofList (c.members.values.flatMap fun m => m.ports.toList)

/--
Assigns the requested ports to a new member. Entries that request nothing are ignored.
-/
def plug (c : Console) (ids : IdSource) (delay : Int32) (requested : List Port) (romHash : String) :
    Except PlugError Plugged :=
  if c.status ≠ .created then
    .error (.consoleStarted c.id)
  else if c.romHash ≠ "" ∧ romHash ≠ "" ∧ c.romHash ≠ romHash then
    -- If one of the hashes is empty any game image will do.
    .error (.romMismatch c.romHash romHash)
  else
    let requests := requested.filter Port.isRequest
    if requests = [] then
      .error .noPortsRequested
    else
      let verdicts := judgeAll c.occupied (Port.sort requests)
      if allAcceptable verdicts then
        let ports := PortSet.ofList (verdicts.map (·.1))
        let drawn := ids.draw
        let clientId : ClientId := ⟨drawn.1⟩
        .ok {
          clientId
          ports := ports.toList
          console := { c with members := c.members.insert clientId { ports, delay } }
          ids := drawn.2 }
      else
        .error (.rejected verdicts)

def portDelays (c : Console) : SortedMap Port Int32 :=
  .ofList (c.members.values.flatMap fun m => m.ports.toList.map fun p => (p, m.delay))

def allReady (c : Console) : Bool :=
  !c.members.isEmpty && c.members.values.all fun m => m.status = .ready

def updateMember (c : Console) (id : ClientId) (f : Member → Mailroom → Member × Mailroom)
    (room : Mailroom) : Console × Mailroom :=
  match c.members.get? id with
  | none => (c, room)
  | some m =>
    let r := f m room
    ({ c with members := c.members.insert id r.1 }, r.2)

def updateMembers (c : Console) (f : ClientId → Member → Mailroom → Member × Mailroom)
    (room : Mailroom) : Console × Mailroom :=
  let r := c.members.mapState f room
  ({ c with members := r.1 }, r.2)

def broadcastKeys (c : Console) (keys : List KeyState) (sender : ClientId) (room : Mailroom) :
    Console × Mailroom :=
  c.updateMembers (fun id m room => if id = sender then (m, room) else (m.post { keys } room).2) room

def startEvent (c : Console) : IncomingEvent :=
  let ports := c.portDelays.entries.map fun e =>
    ({ port := e.1.number, delayFrames := e.2 } : ConnectedPort)
  { start := some { consoleId := c.id.value, ports } }

def broadcastStart (c : Console) (room : Mailroom) : Console × Mailroom :=
  let e := c.startEvent
  let r := c.updateMembers
    (fun _ m room =>
      let r := (m.post e room).2
      (if r.1.status = .done then r.1 else { r.1 with status := .playing }, r.2))
    room
  ({ r.1 with status := .powered }, r.2)

def start (c : Console) (room : Mailroom) : Except StartError (Console × Mailroom) :=
  if c.status ≠ .created then .error (.alreadyStarted c.id)
  else if !c.allReady then .error (.membersNotReady c.id)
  else .ok (c.broadcastStart room)

def stopEvent (c : Console) : IncomingEvent :=
  { stop := some { consoleId := c.id.value } }

def stop (c : Console) (room : Mailroom) : Console × Mailroom :=
  let e := c.stopEvent
  let r := c.updateMembers
    (fun _ m room =>
      let r := (m.post e room).2
      r.1.leave r.2)
    room
  ({ r.1 with status := .done }, r.2)

def bind? (c : Console) (id : ClientId) (mailbox : Nat) : Option Console :=
  match c.members.get? id with
  | none => none
  | some m => (m.bind? mailbox).map fun m => { c with members := c.members.insert id m }

def handle (c : Console) (id : ClientId) (e : OutgoingEvent) (room : Mailroom) :
    Console × Mailroom :=
  match c.members.get? id with
  | none => (c, room)
  | some m =>
    let m := if e.ready.isSome then m.markReady else m
    let c := { c with members := c.members.insert id m }
    if e.keys = [] then
      (c, room)
    else
      -- Keys are relayed if all of them are in order. Otherwise only the first one that is not matters.
      match m.firstRefusal? c.id e.keys with
      | some r => c.updateMember id (fun m room => (m.post (refusalEvent r) room).2) room
      | none => c.broadcastKeys e.keys id room

def streamClosed (c : Console) (id : ClientId) (room : Mailroom) : Console × Mailroom :=
  let r := c.updateMember id Member.leave room
  -- A game that everybody has left is over.
  if r.1.status = .powered ∧ r.1.members.values.all (fun m => m.status = .done) then
    ({ r.1 with status := .done }, r.2)
  else
    r

end Console
end PadRelay
