import PadRelay.Config.Basic
import PadRelay.Ids
import PadRelay.Message.Status
import PadRelay.Message.Text
import PadRelay.Net.Endpoint
import PadRelay.Rpc

/-!
This module contains what can go wrong between an emulator and its server before a game runs.
-/

namespace PadRelay

/--
Why an emulator could not take part in a game with the identity and the ports that it has.
-/
inductive GameFault where
  | invalidConsole (id : ConsoleId)
  | invalidClient (id : ClientId)
  | tooManyPorts (count : Nat)
  | duplicatePorts
  | anyPort
deriving DecidableEq, Repr

def GameFault.message : GameFault → String
  | invalidConsole id => s!"invalid console id {id.text}"
  | invalidClient id => s!"invalid client id {id.text}"
  | tooManyPorts count => s!"too many local ports: {count}"
  | duplicatePorts => "duplicate local ports"
  | anyPort => "local ports contain PORT_ANY"

inductive StartFault where
  | otherEvent (event : IncomingEvent)
  | otherConsole (id : Int64)
  | tooManyPorts (count : Nat)
  | noController (port : Port)
  | duplicatePort (port : Port)
  /-- Ports of this emulator that do not take part. -/
  | missingPorts (ports : List Port)
deriving DecidableEq

def StartFault.message : StartFault → String
  | otherEvent event => MessageType.textOf .incomingEvent event
  | otherConsole id => s!"server returned console id {id.toInt}"
  | tooManyPorts count => s!"too many connected ports: {count}"
  | noController port => s!"unexpected connected port {port.label}"
  | duplicatePort port => s!"duplicate connected port {port.label}"
  | missingPorts ports => s!"local ports not connected: {Port.listText ports}"

inductive ClientError where
  | invalidEndpoint (endpoint : Net.Endpoint)
  | connect (endpoint : Net.Endpoint)
  | rpc (failure : RpcFailure)
  | invalidPortCount (count : Nat)
  | consoleMismatch (expected actual : Int64)
  | notPlugged
  | invalidGame (fault : GameFault)
  | streamNotOpen
  | consoleStopped
  | unexpectedStart (fault : StartFault)
  | config (cause : ConfigError)
  | disabled
  | invalidConsoleId (id : Int64)
  | makeConsoleFailed (status : MakeConsoleStatus)
  | plugRejected (status : PlugStatus)
deriving DecidableEq

def ClientError.label : ClientError → String
  | invalidEndpoint _ => "InvalidEndpoint"
  | connect _ => "Connect"
  | rpc _ => "Rpc"
  | invalidPortCount _ => "InvalidPortCount"
  | consoleMismatch _ _ => "ConsoleMismatch"
  | notPlugged => "NotPlugged"
  | invalidGame _ => "InvalidHandler"
  | streamNotOpen => "StreamNotOpen"
  | consoleStopped => "ConsoleStopped"
  | unexpectedStart _ => "UnexpectedStartEvent"
  | config _ => "Config"
  | disabled => "Disabled"
  | invalidConsoleId _ => "InvalidConsoleId"
  | makeConsoleFailed _ => "MakeConsoleFailed"
  | plugRejected _ => "PlugRejected"

def ClientError.message : ClientError → String
  | invalidEndpoint endpoint => s!"invalid server endpoint {endpoint.text}: invalid URI"
  | connect endpoint => s!"failed to connect to {endpoint.text}: transport error"
  | rpc failure => s!"rpc failed: {failure.text}"
  | invalidPortCount count => s!"between 1 and 4 ports must be requested, got {count}"
  | consoleMismatch expected actual =>
    s!"console id mismatch: expected {expected.toInt}, server returned {actual.toInt}"
  | notPlugged => "controllers are not plugged in"
  | invalidGame fault => s!"invalid event stream handler: {fault.message}"
  | streamNotOpen => "event stream not open"
  | consoleStopped => "console stopped before the game started"
  | unexpectedStart fault => s!"unexpected start event: {fault.message}"
  | config cause => cause.message
  | disabled => "netplay is disabled"
  | invalidConsoleId id => s!"invalid console id {id.toInt}"
  | makeConsoleFailed status => s!"failed to create console: {Enumeration.name status}"
  | plugRejected status => s!"controllers were not plugged: {Enumeration.name status}"

end PadRelay
