import PadRelay.CommandLine.Grammar
import PadRelay.Config.Basic

/-!
This module contains what all tools have in common: what they find on the machine and how they end.
-/

namespace PadRelay.CommandLine

structure Machine where
  home : String := "/root"
  /-- The directory that the user has chosen for configuration files. -/
  configDirectory : Option String := none
  file : String → FileState

def Machine.configPath (m : Machine) (a : Arguments) (fileName : String) : String :=
  (a.value? configOption.long).getD (PadRelay.configPath m.home m.configDirectory fileName)

structure ToolResult where
  exitCode : Nat := 0
  output : String := ""
  error : Option String := none
deriving DecidableEq, Repr

namespace ToolResult

def rejected : ToolResult :=
  { exitCode := 2 }

def failed (error : String) (output : String) : ToolResult :=
  { exitCode := 1, output, error := some error }

def errorLines (r : ToolResult) : List String :=
  r.error.toList.map fun e => "Error: " ++ e

end ToolResult

/--
Runs `f` on the arguments of a command line, if it is accepted. Otherwise the tool ends before it has
done anything.
-/
def withArguments {α : Type} (g : Grammar) (arguments : List String) (f : Arguments → α)
    (ended : ToolResult → α) : α :=
  match g.read arguments with
  | .help => ended {}
  | .rejected => ended .rejected
  | .accepted a => f a

end PadRelay.CommandLine
