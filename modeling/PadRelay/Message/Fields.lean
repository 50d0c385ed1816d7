import PadRelay.Message.Basic
import PadRelay.Message.Status
import PadRelay.Port

/-!
This module contains the schema of the messages: one table of fields for each message type. Writing,
reading and printing a message are all driven by these tables.
-/

namespace PadRelay

inductive EnumType where
  | port
  | makeConsoleStatus
  | plugStatus
  | startStatus
  | invalidDataStatus
  | portVerdict
deriving DecidableEq, Repr, Inhabited

structure EnumMember where
  number : Int32
  name : String
  label : String
deriving DecidableEq, Repr

def enumMembers (α : Type) [Enumeration α] : List EnumMember :=
  (Enumeration.members : List α).map fun a =>
    ⟨Enumeration.number a, Enumeration.name a, Enumeration.label a⟩

namespace EnumType

def members : EnumType → List EnumMember
  | port => enumMembers Port
  | makeConsoleStatus => enumMembers MakeConsoleStatus
  | plugStatus => enumMembers PlugStatus
  | startStatus => enumMembers StartStatus
  | invalidDataStatus => enumMembers InvalidDataStatus
  | portVerdict => enumMembers PortVerdict

def ofNumber? (e : EnumType) (n : Int32) : Option EnumMember :=
  e.members.find? fun m => m.number == n

def ofName? (e : EnumType) (s : String) : Option EnumMember :=
  e.members.find? fun m => m.name == s

end EnumType

inductive MessageType where
  | ping
  | makeConsoleRequest
  | makeConsoleResponse
  | plugRequest
  | portRejection
  | plugResponse
  | startRequest
  | startResponse
  | keyState
  | clientReady
  | connectedPort
  | startGame
  | invalidData
  | stopConsole
  | outgoingEvent
  | incomingEvent
  | shutDownRequest
  | shutDownResponse
deriving DecidableEq, Repr, Inhabited

namespace MessageType

def all : List MessageType :=
  [ping, makeConsoleRequest, makeConsoleResponse, plugRequest, portRejection, plugResponse,
    startRequest, startResponse, keyState, clientReady, connectedPort, startGame, invalidData,
    stopConsole, outgoingEvent, incomingEvent, shutDownRequest, shutDownResponse]

abbrev Carrier : MessageType → Type
  | ping => Ping
  | makeConsoleRequest => MakeConsoleRequest
  | makeConsoleResponse => MakeConsoleResponse
  | plugRequest => PlugRequest
  | portRejection => PortRejection
  | plugResponse => PlugResponse
  | startRequest => StartRequest
  | startResponse => StartResponse
  | keyState => KeyState
  | clientReady => ClientReady
  | connectedPort => ConnectedPort
  | startGame => StartGame
  | invalidData => InvalidData
  | stopConsole => StopConsole
  | outgoingEvent => OutgoingEvent
  | incomingEvent => IncomingEvent
  | shutDownRequest => ShutDownRequest
  | shutDownResponse => ShutDownResponse

def empty : (t : MessageType) → t.Carrier
  | ping => {}
  | makeConsoleRequest => {}
  | makeConsoleResponse => {}
  | plugRequest => {}
  | portRejection => {}
  | plugResponse => {}
  | startRequest => {}
  | startResponse => {}
  | keyState => {}
  | clientReady => {}
  | connectedPort => {}
  | startGame => {}
  | invalidData => {}
  | stopConsole => {}
  | outgoingEvent => {}
  | incomingEvent => {}
  | shutDownRequest => {}
  | shutDownResponse => {}

def stem : MessageType → String
  | ping => "Ping"
  | makeConsoleRequest => "MakeConsoleRequest"
  | makeConsoleResponse => "MakeConsoleResponse"
  | plugRequest => "PlugControllerRequest"
  | portRejection => "PortRejection"
  | plugResponse => "PlugControllerResponse"
  | startRequest => "StartGameRequest"
  | startResponse => "StartGameResponse"
  | keyState => "KeyState"
  | clientReady => "ClientReady"
  | connectedPort => "ConnectedPort"
  | startGame => "StartGame"
  | invalidData => "InvalidData"
  | stopConsole => "StopConsole"
  | outgoingEvent => "OutgoingEvent"
  | incomingEvent => "IncomingEvent"
  | shutDownRequest => "ShutDownServerRequest"
  | shutDownResponse => "ShutDownServerResponse"

def name (t : MessageType) : String :=
  t.stem ++ "PB"

def label (t : MessageType) : String :=
  t.stem ++ "Pb"

def ofName? (s : String) : Option MessageType :=
  all.find? fun t => t.name == s

end MessageType

inductive FieldKind where
  | flag
  | int32
  | int64
  | text
  /-- One number, which may or may not be a member. -/
  | enumeration (e : EnumType)
  /-- Any amount of numbers, which may or may not be members. -/
  | enumerations (e : EnumType)
  | message (t : MessageType)
  | messages (t : MessageType)
deriving DecidableEq, Repr

namespace FieldKind

abbrev Carrier : FieldKind → Type
  | flag => Bool
  | int32 => Int32
  | int64 => Int64
  | text => String
  | enumeration _ => Int32
  | enumerations _ => List Int32
  | message t => Option t.Carrier
  | messages t => List t.Carrier

end FieldKind

/--
A field of the messages of type `t`.
-/
structure Field (t : MessageType) where
  number : Nat
  name : String
  kind : FieldKind
  get : t.Carrier → kind.Carrier
  set : kind.Carrier → t.Carrier → t.Carrier

namespace MessageType

def fields : (t : MessageType) → List (Field t)
  | ping => []
  | makeConsoleRequest => [
      ⟨1, "console_title", .text, (·.title), fun v m => { m with title := v }⟩,
      ⟨2, "rom_name", .text, (·.romName), fun v m => { m with romName := v }⟩,
      ⟨3, "rom_file_md5", .text, (·.romHash), fun v m => { m with romHash := v }⟩]
  | makeConsoleResponse => [
      ⟨1, "status", .enumeration .makeConsoleStatus, (·.status), fun v m => { m with status := v }⟩,
      ⟨2, "console_id", .int64, (·.consoleId), fun v m => { m with consoleId := v }⟩]
  | plugRequest => [
      ⟨1, "console_id", .int64, (·.consoleId), fun v m => { m with consoleId := v }⟩,
      ⟨2, "requested_port_1", .enumeration .port, (·.port1), fun v m => { m with port1 := v }⟩,
      ⟨3, "requested_port_2", .enumeration .port, (·.port2), fun v m => { m with port2 := v }⟩,
      ⟨4, "requested_port_3", .enumeration .port, (·.port3), fun v m => { m with port3 := v }⟩,
      ⟨5, "requested_port_4", .enumeration .port, (·.port4), fun v m => { m with port4 := v }⟩,
      ⟨6, "delay_frames", .int32, (·.delayFrames), fun v m => { m with delayFrames := v }⟩,
      ⟨7, "rom_file_md5", .text, (·.romHash), fun v m => { m with romHash := v }⟩]
  | portRejection => [
      ⟨1, "port", .enumeration .port, (·.port), fun v m => { m with port := v }⟩,
      ⟨2, "reason", .enumeration .portVerdict, (·.reason), fun v m => { m with reason := v }⟩]
  | plugResponse => [
      ⟨1, "status", .enumeration .plugStatus, (·.status), fun v m => { m with status := v }⟩,
      ⟨2, "console_id", .int64, (·.consoleId), fun v m => { m with consoleId := v }⟩,
      ⟨3, "client_id", .int64, (·.clientId), fun v m => { m with clientId := v }⟩,
      ⟨4, "port", .enumerations .port, (·.ports), fun v m => { m with ports := v }⟩,
      ⟨5, "port_rejections", .messages .portRejection, (·.rejections),
        fun v m => { m with rejections := v }⟩]
  | startRequest => [
      ⟨1, "console_id", .int64, (·.consoleId), fun v m => { m with consoleId := v }⟩]
  | startResponse => [
      ⟨1, "status", .enumeration .startStatus, (·.status), fun v m => { m with status := v }⟩,
      ⟨2, "console_id", .int64, (·.consoleId), fun v m => { m with consoleId := v }⟩]
  | keyState => [
      ⟨1, "console_id", .int64, (·.consoleId), fun v m => { m with consoleId := v }⟩,
      ⟨2, "frame_number", .int32, (·.frame), fun v m => { m with frame := v }⟩,
      ⟨3, "port", .enumeration .port, (·.port), fun v m => { m with port := v }⟩,
      ⟨4, "right_d_pad", .flag, (·.rightDPad), fun v m => { m with rightDPad := v }⟩,
      ⟨5, "left_d_pad", .flag, (·.leftDPad), fun v m => { m with leftDPad := v }⟩,
      ⟨6, "down_d_pad", .flag, (·.downDPad), fun v m => { m with downDPad := v }⟩,
      ⟨7, "up_d_pad", .flag, (·.upDPad), fun v m => { m with upDPad := v }⟩,
      ⟨8, "start_button", .flag, (·.start), fun v m => { m with start := v }⟩,
      ⟨9, "z_trigger", .flag, (·.zTrigger), fun v m => { m with zTrigger := v }⟩,
      ⟨10, "b_button", .flag, (·.b), fun v m => { m with b := v }⟩,
      ⟨11, "a_button", .flag, (·.a), fun v m => { m with a := v }⟩,
      ⟨12, "right_c_button", .flag, (·.rightC), fun v m => { m with rightC := v }⟩,
      ⟨13, "left_c_button", .flag, (·.leftC), fun v m => { m with leftC := v }⟩,
      ⟨14, "down_c_button", .flag, (·.downC), fun v m => { m with downC := v }⟩,
      ⟨15, "up_c_button", .flag, (·.upC), fun v m => { m with upC := v }⟩,
      ⟨16, "left_trigger", .flag, (·.leftTrigger), fun v m => { m with leftTrigger := v }⟩,
      ⟨17, "right_trigger", .flag, (·.rightTrigger), fun v m => { m with rightTrigger := v }⟩,
      ⟨18, "reserved_1", .flag, (·.reserved1), fun v m => { m with reserved1 := v }⟩,
      ⟨19, "reserved_2", .flag, (·.reserved2), fun v m => { m with reserved2 := v }⟩,
      ⟨20, "x_axis", .int32, (·.xAxis), fun v m => { m with xAxis := v }⟩,
      ⟨21, "y_axis", .int32, (·.yAxis), fun v m => { m with yAxis := v }⟩]
  | clientReady => [
      ⟨1, "console_id", .int64, (·.consoleId), fun v m => { m with consoleId := v }⟩,
      ⟨2, "client_id", .int64, (·.clientId), fun v m => { m with clientId := v }⟩]
  | connectedPort => [
      ⟨1, "port", .enumeration .port, (·.port), fun v m => { m with port := v }⟩,
      ⟨2, "delay_frames", .int32, (·.delayFrames), fun v m => { m with delayFrames := v }⟩]
  | startGame => [
      ⟨1, "console_id", .int64, (·.consoleId), fun v m => { m with consoleId := v }⟩,
      ⟨2, "connected_ports", .messages .connectedPort, (·.ports),
        fun v m => { m with ports := v }⟩]
  | invalidData => [
      ⟨1, "console_id", .int64, (·.consoleId), fun v m => { m with consoleId := v }⟩,
      ⟨2, "port", .enumeration .port, (·.port), fun v m => { m with port := v }⟩,
      ⟨3, "status", .enumeration .invalidDataStatus, (·.status), fun v m => { m with status := v }⟩]
  | stopConsole => [
      ⟨1, "console_id", .int64, (·.consoleId), fun v m => { m with consoleId := v }⟩]
  | outgoingEvent => [
      ⟨1, "key_press", .messages .keyState, (·.keys), fun v m => { m with keys := v }⟩,
      ⟨2, "client_ready", .message .clientReady, (·.ready), fun v m => { m with ready := v }⟩]
  | incomingEvent => [
      ⟨1, "key_press", .messages .keyState, (·.keys), fun v m => { m with keys := v }⟩,
      ⟨2, "start_game", .message .startGame, (·.start), fun v m => { m with start := v }⟩,
      ⟨3, "invalid_data", .messages .invalidData, (·.invalid), fun v m => { m with invalid := v }⟩,
      ⟨4, "stop_console", .message .stopConsole, (·.stop), fun v m => { m with stop := v }⟩]
  | shutDownRequest => []
  | shutDownResponse => [
      ⟨1, "server_will_die", .flag, (·.willDie), fun v m => { m with willDie := v }⟩]

/--
Every message is made of its fields: setting all of them on the empty message gives it back.
-/
theorem foldl_set_get (t : MessageType) (m : t.Carrier) :
    t.fields.foldl (fun acc f => f.set (f.get m) acc) t.empty = m := by
  cases t <;> rfl

theorem pairwise_number (t : MessageType) :
    (t.fields.map (·.number)).Pairwise (· < ·) := by
  cases t <;> decide

end MessageType
end PadRelay
