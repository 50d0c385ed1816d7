import PadRelay.CommandLine.Host
import PadRelay.CommandLine.Join
import PadRelay.CommandLine.Server

/-!
This module contains the program: it starts a server as its command line says and then runs the tools
that the lines of its input name, all of them on that server.
-/

namespace PadRelay

open CommandLine

def freePort : UInt16 := 49152

def readFileState (path : String) : IO FileState := do
  match ← (IO.FS.readBinFile path).toBaseIO with
  | .ok bytes => return .contents bytes.toList
  | .error (.noFileOrDirectory ..) => return .missing
  | .error _ => return .directory

/--
The machine as a tool with the given grammar and arguments finds it. Only the file with its settings is
looked at.
-/
def machineFor (g : Grammar) (arguments : List String) (fileName : String) : IO Machine := do
  let home := (← IO.getEnv "HOME").getD "/root"
  let configDirectory ← IO.getEnv "XDG_CONFIG_HOME"
  let m : Machine := { home, configDirectory, file := fun _ => .missing }
  match g.read arguments with
  | .accepted a =>
    let state ← readFileState (m.configPath a fileName)
    return { m with file := fun _ => state }
  | _ => return m

def report (r : ToolResult) : IO Unit := do
  IO.print r.output
  for line in r.errorLines do
    IO.eprintln line

def runTool (words : List String) (l : Listener) : IO Listener := do
  match words with
  | [] => return l
  | "mkconsole" :: arguments =>
    let r := makeConsole arguments l
    report r.1
    return r.2
  | "start-game" :: arguments =>
    let r := startGame arguments l
    report r.1
    return r.2
  | "netplay-join" :: arguments =>
    match join? (← machineFor joinGrammar arguments ClientConfig.fileName) arguments l with
    | none =>
      IO.eprintln "Error: the game waits for others"
      return l
    | some r =>
      report r.1
      return r.2
  | name :: _ =>
    IO.eprintln s!"Error: no tool has the name {name}"
    return l

/--
Runs the tools that the lines of `input` name.
-/
partial def runTools (input : IO.FS.Stream) (l : Listener) : IO Unit := do
  let line ← input.getLine
  unless line.isEmpty do
    let words := (line.trimAscii.toString.splitOn " ").filter (· != "")
    runTools input (← runTool words l)

end PadRelay

open PadRelay in
def main (arguments : List String) : IO UInt32 := do
  let m ← machineFor CommandLine.serverGrammar arguments ServerConfig.fileName
  match CommandLine.serverConfig m arguments with
  | .error r =>
    report r
    return UInt32.ofNat r.exitCode
  | .ok config =>
    IO.eprintln s!"listening on {config.socketText}"
    runTools (← IO.getStdin) (Listener.start config freePort)
    return 0
