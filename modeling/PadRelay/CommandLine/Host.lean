import PadRelay.CommandLine.Tool
import PadRelay.Emulator
import PadRelay.Listener

/-!
This module contains the tools for the host of a game: one makes a console, the other one starts the game
on it.
-/

namespace PadRelay.CommandLine

def endpointOf (a : Arguments) : Net.Endpoint :=
  { host := a.positional 0, port := (readPort? (a.positional 1)).getD 0 }

def textOption (long : String) : OptionSpec :=
  { long, kind := .value fun _ => true }

def makeConsoleGrammar : Grammar where
  positionals := [fun _ => true, fun s => (readPort? s).isSome]
  options := [textOption "title", textOption "rom-name", textOption "rom-md5", verboseOption]

def makeConsole (arguments : List String) (l : Listener) : ToolResult × Listener :=
  withArguments makeConsoleGrammar arguments
    (fun a =>
      match l.connect (endpointOf a) with
      | .error e => (.failed e.message "", l)
      | .ok () =>
        let r := l.server.makeConsole {
          title := (a.value? "title").getD "Netplay"
          romName := (a.value? "rom-name").getD ""
          romHash := (a.value? "rom-md5").getD "" }
        let l := { l with server := r.2 }
        match r.1.outcome with
        | (_, some id) => ({ output := s!"{id.text}\n" }, l)
        | (status, none) =>
          (.failed s!"failed to create console: {Enumeration.name status}" "", l))
    fun ended => (ended, l)

def readConsoleId? (text : String) : Option ConsoleId :=
  (readIntegerWithin? Int64.minValue.toInt Int64.maxValue.toInt text).map fun n =>
    ⟨Int64.ofInt n⟩

def startGameGrammar : Grammar where
  positionals :=
    [fun _ => true, fun s => (readPort? s).isSome, fun s => (readConsoleId? s).isSome]
  options := [verboseOption]

def startGame (arguments : List String) (l : Listener) : ToolResult × Listener :=
  withArguments startGameGrammar arguments
    (fun a =>
      let id := (readConsoleId? (a.positional 2)).getD {}
      match l.connect (endpointOf a) with
      | .error e => (.failed e.message "", l)
      | .ok () =>
        let r := l.server.startGame { consoleId := id.value }
        let l := { l with server := r.2 }
        match r.1.outcome with
        | .success => ({ output := s!"started console {id.text}\n" }, l)
        | status =>
          (.failed s!"failed to start console {id.text}: {Enumeration.name status}" "", l))
    fun ended => (ended, l)

end PadRelay.CommandLine
