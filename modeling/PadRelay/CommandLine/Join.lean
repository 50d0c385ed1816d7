import PadRelay.CommandLine.Tool
import PadRelay.Session

/-!
This module contains the tool that takes a seat in a game: it joins as it is configured and plays some
frames in which no button is pressed.
-/

namespace PadRelay.CommandLine

def readFrames? (text : String) : Option Int :=
  readIntegerWithin? Int32.minValue.toInt Int32.maxValue.toInt text

def defaultFrames : Int := 600

def joinGrammar : Grammar where
  options := [
    configOption,
    { long := "frames", kind := .value fun s => (readFrames? s).isSome },
    verboseOption]

/--
A session, the server that it is on, and the wording of the error that ended the game, if one did.
-/
structure Seat (β : Type) where
  session : Session β
  server : Server
  error : Option String := none

namespace Seat

variable {β : Type}

def settle (s : Seat β) : Seat β :=
  let sent := s.session.transmitAll s.server
  let fetched := sent.1.fetch sent.2
  { s with session := fetched.1, server := fetched.2 }

def awaitStart? (s : Seat β) : Option (Seat β) :=
  s.session.awaitStart?.map fun r =>
    { s with
      session := r.2
      error :=
        match r.1 with
        | .error e => some e.message
        | .ok () => none }

variable [Inhabited β]

def getAll? (coder : Coder β) (frame : Int32) : List Port → Seat β → Option (Seat β)
  | [], s => some s
  | port :: rest, s =>
    match s.session.get? coder port frame with
    | none => none
    | some (.error e, session) => some { s with session, error := some e.message }
    | some (.ok _, session) => getAll? coder frame rest { s with session }

def playFrame? (coder : Coder β) (localPorts connected : List Port) (frame : Int32)
    (s : Seat β) : Option (Seat β) :=
  let updates := localPorts.map fun port => ({ port, frame, buttons := default } : ButtonUpdate β)
  match s.session.put coder updates with
  | (.error e, session) => some { s with session, error := some e.message }
  | (.ok (), session) => getAll? coder frame connected { s with session }.settle

def play? (coder : Coder β) (localPorts connected : List Port) :
    (count : Nat) → (frame : Int32) → Seat β → Option (Seat β)
  | 0, _, s => some s
  | count + 1, frame, s =>
    match playFrame? coder localPorts connected frame s with
    | none => none
    | some s =>
      if s.error.isSome then some s else play? coder localPorts connected count (frame + 1) s

/--
Waits for the game to start and plays. There is no result as long as the game may still start or buttons
of others may still arrive. `output` was written before.
-/
def awaitAndPlay? (coder : Coder β) (frames : Int) (output : String) (s : Seat β) :
    Option (ToolResult × Seat β) := do
  let s ← s.settle.awaitStart?
  let localPorts := s.session.game.localPorts.toList
  let connected := localPorts ++ s.session.game.remotePorts.toList
  let s ← if s.error.isSome then some s else play? coder localPorts connected frames.toNat 0 s
  match s.error with
  | some e => return (.failed e output, s)
  | none => return ({ output := output ++ s!"played {frames} frames\n" }, s)

def run? (coder : Coder β) (frames : Int) (s : Seat β) : Option (ToolResult × Seat β) :=
  let e := s.session.emulator
  let output := s!"console {e.consoleId.text} ports {Port.listText e.localPorts}\n"
  if s.session.createdConsole then
    let output := output ++ "Press enter to start the console..."
    let r := s.server.startGame s.session.startRequest
    let s := { s with server := r.2 }
    match r.1.outcome with
    | .success => s.awaitAndPlay? coder frames output
    | status =>
      some (.failed s!"failed to start console: {Enumeration.name status}" output, s)
  else
    s.awaitAndPlay? coder frames output

end Seat

/--
Joins as it is configured, plays some frames and leaves. There is no result as long as the tool has to
wait for others.
-/
def join? (m : Machine) (arguments : List String) (l : Listener) :
    Option (ToolResult × Listener) :=
  withArguments joinGrammar arguments
    (fun a =>
      let path := m.configPath a ClientConfig.fileName
      let frames := ((a.value? "frames").bind readFrames?).getD defaultFrames
      match Session.joinFromFile path (m.file path) l with
      | (.error _, l) => some (.failed s!"joining with {path}" "", l)
      | (.ok session, l) =>
        let seat : Seat Pad := { session, server := l.server }
        (seat.settle.run? Coder.pad frames).map fun r =>
          (r.1, { l with server := r.2.session.leave r.2.server }))
    fun ended => some (ended, l)

end PadRelay.CommandLine
