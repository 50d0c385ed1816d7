import PadRelay.Config.Server
import PadRelay.Port

/-!
This module contains the settings of an emulator.
-/

namespace PadRelay

inductive PortRequest where
  | port1
  | port2
  | port3
  | port4
  | any
deriving DecidableEq, Repr, Inhabited

namespace PortRequest

def all : List PortRequest :=
  [port1, port2, port3, port4, any]

def name : PortRequest → String
  | port1 => "port1"
  | port2 => "port2"
  | port3 => "port3"
  | port4 => "port4"
  | any => "any"

def ofName? (s : String) : Option PortRequest :=
  all.find? fun r => r.name == s

def toPort : PortRequest → Port
  | port1 => .one
  | port2 => .two
  | port3 => .three
  | port4 => .four
  | any => .any

end PortRequest

structure ClientConfig where
  enabled : Bool := true
  serverHostname : String := "localhost"
  serverPort : UInt16 := defaultServerPort
  /-- The console to join. Without one a new console is made. -/
  consoleId : Option Int64 := none
  delayFrames : Int32 := 2
  requestedPorts : List PortRequest := [.any]
  romHash : String := ""
deriving DecidableEq, Repr

namespace ClientConfig

def fileName : String := "client.toml"

def ports (c : ClientConfig) : List Port :=
  c.requestedPorts.map PortRequest.toPort

def ofDocument? : Document → Option ClientConfig
  | .table entries => do
    let default : ClientConfig := {}
    let enabled ← Document.setting entries "enabled" default.enabled Document.flag?
    let serverHostname ←
      Document.setting entries "server_hostname" default.serverHostname Document.text?
    let serverPort ← Document.setting entries "server_port" default.serverPort fun d =>
      (d.int? 0 65535).map fun n => UInt16.ofNat n.toNat
    let consoleId ← Document.setting entries "console_id" default.consoleId fun d =>
      (d.int? Int64.minValue.toInt Int64.maxValue.toInt).map fun n => some (Int64.ofInt n)
    let delayFrames ← Document.setting entries "delay_frames" default.delayFrames fun d =>
      (d.int? Int32.minValue.toInt Int32.maxValue.toInt).map Int32.ofInt
    let requestedPorts ←
      Document.setting entries "requested_ports" default.requestedPorts fun d =>
        d.list?.bind fun l => l.mapM fun d =>
          (d.variant? Document.isEmptyGroup).bind PortRequest.ofName?
    let romHash ← Document.setting entries "rom_file_md5" default.romHash Document.text?
    return { enabled, serverHostname, serverPort, consoleId, delayFrames, requestedPorts, romHash }
  | _ => none

def parse (text origin : String) : Except ConfigError ClientConfig :=
  parseConfig ofDocument? text origin

def load (path : String) (file : FileState) : Except ConfigError ClientConfig :=
  loadConfig {} ofDocument? path file

end ClientConfig
end PadRelay
