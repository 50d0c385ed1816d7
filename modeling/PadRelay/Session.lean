import PadRelay.Config.Client
import PadRelay.Emulator
import PadRelay.Game.Buttons
import PadRelay.Game.Start
import PadRelay.Listener

/-!
This module contains sessions: an emulator that takes part in a game on a server. Joining does
everything that has to be done once per game. It makes a console unless one is configured, plugs the
configured ports in and announces that the emulator is ready. Events travel in both directions: those to
the server wait in the outbox of the session, those from the server in the mailbox of its stream.
-/

namespace PadRelay

structure Session (β : Type) where
  emulator : Emulator
  game : Game β
  /-- Whether the console was made for this session, which then starts the game. -/
  createdConsole : Bool
  stream : Nat
  /-- The events that the server has not received yet, oldest first. -/
  outbox : List OutgoingEvent := []
deriving DecidableEq

namespace Session

def consoleTitle : String := "netplay-session"

def chooseConsole (config : ClientConfig) (s : Server) :
    Except ClientError (ConsoleId × Bool) × Server :=
  match config.consoleId with
  | some id => (if 0 < id then .ok (⟨id⟩, false) else .error (.invalidConsoleId id), s)
  | none =>
    let r := s.makeConsole { title := consoleTitle, romHash := config.romHash }
    match r.1.outcome with
    | (_, some id) => (.ok (id, true), r.2)
    | (status, none) => (.error (.makeConsoleFailed status), r.2)

variable {β : Type}

/--
Opens the event stream of an emulator that is plugged in and announces that it is ready.
-/
def enter (emulator : Emulator) (createdConsole : Bool) (s : Server) :
    Except ClientError (Session β) × Server :=
  match emulator.newGame with
  | .error e => (.error e, s)
  | .ok game =>
    let announced := Game.ready game (.ok {})
    (.ok {
      emulator
      game := announced.game
      createdConsole
      stream := s.streams.length
      outbox := announced.sent.toList }, s.openStream)

def plugAndEnter (emulator : Emulator) (ports : List Port) (createdConsole : Bool) (s : Server) :
    Except ClientError (Session β) × Server :=
  match emulator.plugRequest ports with
  | .error e => (.error e, s)
  | .ok request =>
    let r := s.plugController request
    match emulator.plugged (.ok r.1) with
    | (.error e, _) => (.error e, r.2)
    | (.ok .success, emulator) => enter emulator createdConsole r.2
    | (.ok status, _) => (.error (.plugRejected status), r.2)

def join (config : ClientConfig) (l : Listener) : Except ClientError (Session β) × Listener :=
  let count := config.ports.length
  if !config.enabled then
    (.error .disabled, l)
  else if count = 0 ∨ maxPorts < count then
    (.error (.invalidPortCount count), l)
  else
    match l.connect ⟨config.serverHostname, config.serverPort⟩ with
    | .error e => (.error e, l)
    | .ok () =>
      match chooseConsole config l.server with
      | (.error e, server) => (.error e, { l with server })
      | (.ok (consoleId, created), server) =>
        let emulator : Emulator :=
          { consoleId, delay := config.delayFrames, romHash := config.romHash }
        let r := plugAndEnter emulator config.ports created server
        (r.1, { l with server := r.2 })

def joinFromFile (path : String) (file : FileState) (l : Listener) :
    Except ClientError (Session β) × Listener :=
  match ClientConfig.load path file with
  | .error cause => (.error (.config cause), l)
  | .ok config => join config l

def startRequest (s : Session β) : StartRequest :=
  { consoleId := s.emulator.consoleId.value }

/--
The session after an operation on its game. What was sent goes into the outbox.
-/
def after {ε α : Type} (s : Session β) (o : Outcome β ε α) : Session β :=
  { s with game := o.game, outbox := s.outbox ++ o.sent.toList }

def awaitStart? (s : Session β) : Option (Except ClientError Unit × Session β) :=
  s.game.awaitStart?.map fun o => (o.result, s.after o)

def put (coder : Coder β) (s : Session β) (updates : List (ButtonUpdate β)) :
    Except PutError Unit × Session β :=
  let o := s.game.put coder updates
  (o.result, s.after o)

def get? [Inhabited β] (coder : Coder β) (s : Session β) (port : Port) (frame : Int32) :
    Option (Except GetError β × Session β) :=
  (s.game.get? coder port frame).map fun o => (o.result, s.after o)

def transmit (s : Session β) (server : Server) : Session β × Server :=
  match s.outbox with
  | [] => (s, server)
  | e :: outbox => ({ s with outbox }, server.receive s.stream e)

def transmitAll (s : Session β) (server : Server) : Session β × Server :=
  ({ s with outbox := [] }, s.outbox.foldl (fun server e => server.receive s.stream e) server)

def fetch (s : Session β) (server : Server) : Session β × Server :=
  let r := server.collect s.stream
  let game := s.game.deliver r.1
  let mayPost := (server.room.boxes[s.stream]?).any (·.hasSender)
  -- Once nobody can post any more the stream ends behind what was posted.
  ({ s with game := if mayPost then game else game.finishStream .closed }, r.2)

def leave (s : Session β) (server : Server) : Server :=
  ((s.transmitAll server).2.endStream s.stream).stopListening s.stream

def text (s : Session β) : String :=
  "Session \x7b client: " ++ s.emulator.text ++ ", created_console: " ++
    (if s.createdConsole then "true" else "false") ++ " \x7d"

end Session
end PadRelay
