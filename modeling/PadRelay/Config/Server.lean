import PadRelay.Config.Basic
import PadRelay.Net.Address

/-!
This module contains the settings of a server.
-/

namespace PadRelay

def defaultServerPort : UInt16 := 10001

structure ServerConfig where
  bindAddress : Net.Address := .v4 0 0 0 0
  port : UInt16 := defaultServerPort
  testMode : Bool := false
  maxConsoles : Option Nat := none
deriving DecidableEq, Repr

namespace ServerConfig

def fileName : String := "server.toml"

def testModeLimit : Nat := 10

/--
The settings of a server for tests on the same machine. The port is chosen when the server starts.
-/
def localTest : ServerConfig :=
  { bindAddress := .v4 127 0 0 1, port := 0, testMode := true }

def effectiveMaxConsoles (c : ServerConfig) : Option Nat :=
  match c.maxConsoles with
  | some limit => some limit
  | none => if c.testMode then some testModeLimit else none

def socketText (c : ServerConfig) : String :=
  c.bindAddress.textWithPort c.port

def ofDocument? : Document → Option ServerConfig
  | .table entries => do
    let default : ServerConfig := {}
    let bindAddress ← Document.setting entries "bind_address" default.bindAddress fun d =>
      d.text?.bind Net.Address.ofText?
    let port ← Document.setting entries "port" default.port fun d =>
      (d.int? 0 65535).map fun n => UInt16.ofNat n.toNat
    let testMode ← Document.setting entries "test_mode" default.testMode Document.flag?
    let maxConsoles ← Document.setting entries "max_consoles" default.maxConsoles fun d =>
      (d.int? 0 (UInt64.size - 1)).map fun n => some n.toNat
    return { bindAddress, port, testMode, maxConsoles }
  | _ => none

def parse (text origin : String) : Except ConfigError ServerConfig :=
  parseConfig ofDocument? text origin

def load (path : String) (file : FileState) : Except ConfigError ServerConfig :=
  loadConfig {} ofDocument? path file

end ServerConfig
end PadRelay
