import PadRelay.Game.Basic

/-!
This module contains emulators as they talk to a server before a game: who they are, which ports they
have, and what they make of the answers of the server.
-/

namespace PadRelay

structure Emulator where
  consoleId : ConsoleId
  /-- Who this emulator is on the console, once it is plugged in. -/
  clientId : ClientId := {}
  /-- The number of frames by which the input of its ports is delayed. -/
  delay : Int32 := 0
  localPorts : List Port := []
  romHash : String := ""
deriving DecidableEq, Repr

namespace Emulator

/--
The request for some ports. At least one and at most four have to be requested.
-/
def plugRequest (e : Emulator) (ports : List Port) : Except ClientError PlugRequest :=
  if ports.length = 0 ∨ maxPorts < ports.length then
    .error (.invalidPortCount ports.length)
  else
    let port := fun (i : Nat) => (ports.getD i .unknown).number
    .ok {
      consoleId := e.consoleId.value
      port1 := port 0
      port2 := port 1
      port3 := port 2
      port4 := port 3
      delayFrames := e.delay
      romHash := e.romHash }

/--
Handles what came of the call for ports. An answer for this console tells who this emulator is and which
ports it has, whatever its status.
-/
def plugged (e : Emulator) (answer : Except RpcFailure PlugResponse) :
    Except ClientError PlugStatus × Emulator :=
  match answer with
  | .error failure => (.error (.rpc failure), e)
  | .ok response =>
    if response.consoleId ≠ e.consoleId.value then
      (.error (.consoleMismatch e.consoleId.value response.consoleId), e)
    else
      (.ok (Enumeration.ofNumber response.status),
        { e with
          clientId := ⟨response.clientId⟩
          localPorts := response.ports.map Port.ofNumber })

def plugPoints : List TimingEvent :=
  [.plugRequest, .plugResponse]

def newGame {β : Type} (e : Emulator) : Except ClientError (Game β) :=
  if e.consoleId.isValid && e.clientId.isValid then
    match Game.create? e.consoleId e.clientId e.localPorts with
    | .error fault => .error (.invalidGame fault)
    | .ok game => .ok game
  else
    .error .notPlugged

def text (e : Emulator) : String :=
  let parts := [
    s!"console_id: {e.consoleId.debugText}",
    s!"client_id: {e.clientId.debugText}",
    s!"delay_frames: {e.delay.toInt}",
    s!"local_ports: {Port.listText e.localPorts}"]
  "NetplayClient \x7b " ++ ", ".intercalate parts ++ " \x7d"

end Emulator

/--
How the request for a console has ended. There is a console only if it was a success.
-/
def MakeConsoleResponse.outcome (r : MakeConsoleResponse) :
    MakeConsoleStatus × Option ConsoleId :=
  let status : MakeConsoleStatus := Enumeration.ofNumber r.status
  (status, if status = .success then some ⟨r.consoleId⟩ else none)

def StartResponse.outcome (r : StartResponse) : StartStatus :=
  Enumeration.ofNumber r.status

end PadRelay
