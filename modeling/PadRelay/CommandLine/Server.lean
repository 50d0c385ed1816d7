import PadRelay.CommandLine.Tool
import PadRelay.Config.Server

/-!
This module contains the command line of the server. What it says counts more than the settings in the
file.
-/

namespace PadRelay.CommandLine

def serverGrammar : Grammar where
  options := [
    { long := "port", short := some 'p', kind := .value fun s => (readPort? s).isSome },
    { long := "bind", kind := .value fun s => (Net.Address.ofText? s).isSome },
    { long := "test-mode", kind := .once },
    configOption,
    verboseOption]

def overrideConfig (a : Arguments) (config : ServerConfig) : ServerConfig :=
  { config with
    port := ((a.value? "port").bind readPort?).getD config.port
    bindAddress := ((a.value? "bind").bind Net.Address.ofText?).getD config.bindAddress
    testMode := config.testMode || a.has "test-mode" }

def serverConfig (m : Machine) (arguments : List String) : Except ToolResult ServerConfig :=
  withArguments serverGrammar arguments
    (fun a =>
      let path := m.configPath a ServerConfig.fileName
      match ServerConfig.load path (m.file path) with
      | .error _ => .error (.failed s!"loading {path}" "")
      | .ok config => .ok (overrideConfig a config))
    .error

end PadRelay.CommandLine
