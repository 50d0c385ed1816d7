import PadRelay.Lobby
import PadRelay.Wire.Codec
import PadRelay.Wire.Frame

/-!
This module contains the server: the calls that it answers and the event streams that it reads. A
stream is anonymous until it names a client of a console that has no stream yet. From then on it
belongs to that client until it ends.
-/

namespace PadRelay

structure Binding where
  /-- The position of the console. -/
  console : Nat
  clientId : ClientId
deriving DecidableEq, Repr

structure EventStream where
  /-- The mailbox to answer to as long as no client holds it. -/
  sink : Option Nat
  binding : Option Binding := none
  isOpen : Bool := true
  /-- The bytes of a frame that has not arrived completely. -/
  partialFrame : List UInt8 := []
deriving DecidableEq, Repr

structure Server where
  lobby : Lobby := {}
  room : Mailroom := {}
  /-- All streams that were ever opened. The mailbox of a stream has the same position. -/
  streams : List EventStream := []
  testMode : Bool := false
  stopping : Bool := false
deriving DecidableEq

namespace Server

def eventBuffer : Nat := 1024

def ping (request : Ping) : Ping :=
  request

def makeConsole (s : Server) (request : MakeConsoleRequest) : MakeConsoleResponse × Server :=
  match s.lobby.create request.title request.romName request.romHash with
  | (some id, lobby) =>
    ({ status := Enumeration.number MakeConsoleStatus.success, consoleId := id.value },
      { s with lobby })
  | (none, lobby) =>
    ({ status := Enumeration.number MakeConsoleStatus.unspecifiedFailure }, { s with lobby })

/--
The ports of a request. Numbers that name no port request nothing.
-/
def requestedPorts (request : PlugRequest) : List Port :=
  [request.port1, request.port2, request.port3, request.port4].map Port.ofNumber

def plugFailure (consoleId : Int64) : PlugError → PlugResponse
  | .romMismatch _ _ => { consoleId, status := Enumeration.number PlugStatus.romMismatch }
  | .noPortsRequested => { consoleId, status := Enumeration.number PlugStatus.noPortsRequested }
  | .rejected verdicts => {
      consoleId
      status := Enumeration.number PlugStatus.portRequestRejected
      rejections := verdicts.map fun v =>
        { port := v.1.number, reason := Enumeration.number v.2 } }
  | .consoleStarted _ => { consoleId, status := Enumeration.number PlugStatus.unspecifiedFailure }

def plugController (s : Server) (request : PlugRequest) : PlugResponse × Server :=
  match s.lobby.lookup? ⟨request.consoleId⟩ with
  | none =>
    ({ consoleId := request.consoleId,
       status := Enumeration.number PlugStatus.unspecifiedFailure }, s)
  | some (k, c) =>
    match s.lobby.plug k c request.delayFrames (requestedPorts request) request.romHash with
    | .error e => (plugFailure request.consoleId e, s)
    | .ok (p, lobby) =>
      ({ consoleId := request.consoleId
         status := Enumeration.number PlugStatus.success
         clientId := p.clientId.value
         ports := p.ports.map Port.number }, { s with lobby })

def update (s : Server) (k : Nat) (r : Console × Mailroom) : Server :=
  { s with lobby := s.lobby.set k r.1, room := r.2 }

def startGame (s : Server) (request : StartRequest) : StartResponse × Server :=
  let failure : StartResponse :=
    { consoleId := request.consoleId, status := Enumeration.number StartStatus.unspecifiedFailure }
  match s.lobby.lookup? ⟨request.consoleId⟩ with
  | none => (failure, s)
  | some (k, c) =>
    match c.start s.room with
    | .error _ => (failure, s)
    | .ok r =>
      ({ consoleId := request.consoleId, status := Enumeration.number StartStatus.success },
        s.update k r)

def shutDown (s : Server) : Server :=
  let r := s.lobby.stopAll s.room
  { s with lobby := r.1, room := r.2, stopping := true }

/--
Shuts the server down in test mode. Otherwise the request is refused.
-/
def shutDownServer (s : Server) (_ : ShutDownRequest) : ShutDownResponse × Server :=
  if s.testMode then ({ willDie := true }, s.shutDown) else ({ willDie := false }, s)

def openStream (s : Server) : Server :=
  { s with
    room := s.room.openBox eventBuffer
    streams := s.streams ++ [{ sink := some s.room.nextBox }] }

def setStream (s : Server) (i : Nat) (stream : EventStream) : Server :=
  { s with streams := s.streams.set i stream }

def replyAnonymous (s : Server) (stream : EventStream) (consoleId : Int64)
    (status : InvalidDataStatus) : Server :=
  match stream.sink with
  | none => s
  | some mailbox =>
    -- An answer for which there is no room is lost.
    { s with room := (s.room.post mailbox (refusalEvent (refusal consoleId .unknown status))).2 }

/--
Looks up the client that a stream names and gives it the mailbox of the stream, which belongs to it from
then on.
-/
def bind? (s : Server) (i : Nat) (stream : EventStream) (ready : ClientReady) :
    Except InvalidDataStatus (Binding × Server) :=
  match s.lobby.lookup? ⟨ready.consoleId⟩ with
  | none => .error .invalidConsole
  | some (k, c) =>
    match stream.sink with
    | none => .error .invalidClient
    | some mailbox =>
      match c.bind? ⟨ready.clientId⟩ mailbox with
      | none => .error .invalidClient
      | some c =>
        let b : Binding := { console := k, clientId := ⟨ready.clientId⟩ }
        let s := s.setStream i { stream with sink := none, binding := some b }
        .ok (b, { s with lobby := s.lobby.set k c })

def dispatch (s : Server) (b : Binding) (e : OutgoingEvent) : Server :=
  match s.lobby.console? b.console with
  | none => s
  | some c => s.update b.console (c.handle b.clientId e s.room)

def receive (s : Server) (i : Nat) (e : OutgoingEvent) : Server :=
  match s.streams[i]? with
  | none => s
  | some stream =>
    if !stream.isOpen then
      s
    else
      match stream.binding with
      | some b => s.dispatch b e
      | none =>
        match e.ready with
        | none => s.replyAnonymous stream 0 .clientNotReady
        | some ready =>
          match s.bind? i stream ready with
          | .error status => s.replyAnonymous stream ready.consoleId status
          | .ok (b, s) => s.dispatch b e

def endStream (s : Server) (i : Nat) : Server :=
  match s.streams[i]? with
  | none => s
  | some stream =>
    if !stream.isOpen then
      s
    else
      let closed := s.setStream i { stream with sink := none, isOpen := false, partialFrame := [] }
      match stream.binding with
      | some b =>
        match s.lobby.console? b.console with
        | none => closed
        | some c =>
          let r := c.streamClosed b.clientId s.room
          let s := closed.update b.console r
          -- Consoles that are over leave the list once the game of one of them has ended.
          if r.1.status = .done then { s with lobby := s.lobby.removeFinished } else s
      | none =>
        match stream.sink with
        | none => closed
        | some mailbox => { closed with room := closed.room.closeSender mailbox }

/--
Handles all complete frames in `bytes`.
-/
def receiveFrames (s : Server) (i : Nat) (bytes : List UInt8) : Server :=
  match h : Wire.readFrame bytes with
  | .incomplete =>
    match s.streams[i]? with
    | none => s
    | some stream => s.setStream i { stream with partialFrame := bytes }
  | .malformed => s.endStream i
  | .frame message rest =>
    match Wire.decode .outgoingEvent message with
    -- A frame without an event ends the stream as bytes do that are no frame.
    | none => s.endStream i
    | some e =>
      have : rest.length < bytes.length := Wire.length_lt_of_readFrame h
      (s.receive i e).receiveFrames i rest
termination_by bytes.length
decreasing_by assumption

/--
Handles bytes that arrived on a stream. They may start or end inside of a frame.
-/
def receiveBytes (s : Server) (i : Nat) (bytes : List UInt8) : Server :=
  match s.streams[i]? with
  | none => s
  | some stream => if stream.isOpen then s.receiveFrames i (stream.partialFrame ++ bytes) else s

/--
Collects the oldest `n` of the events that were left for a stream.
-/
def take (s : Server) (i n : Nat) : List IncomingEvent × Server :=
  let r := s.room.take i n
  (r.1, { s with room := r.2 })

def collect (s : Server) (i : Nat) : List IncomingEvent × Server :=
  let r := s.room.collect i
  (r.1, { s with room := r.2 })

/--
Handles that nobody listens to a stream any more. Its events are still handled.
-/
def stopListening (s : Server) (i : Nat) : Server :=
  { s with room := s.room.closeReader i }

end Server
end PadRelay
