import PadRelay.Toml.File

/-!
This module contains what all configuration files have in common: where they lie, how they are read and
what can go wrong. A setting that a file leaves out has its default, and names that stand for no
setting are ignored.
-/

namespace PadRelay

inductive FileState where
  | missing
  | directory
  | contents (bytes : List UInt8)
deriving DecidableEq, Repr

inductive ReadFailure where
  | isDirectory
  | invalidText
deriving DecidableEq, Repr

def ReadFailure.message : ReadFailure → String
  | isDirectory => "Is a directory (os error 21)"
  | invalidText => "stream did not contain valid UTF-8"

inductive ConfigError where
  | read (path : String) (cause : ReadFailure)
  | parse (path : String)
deriving DecidableEq, Repr

def ConfigError.label : ConfigError → String
  | read _ _ => "Read"
  | parse _ => "Parse"

def ConfigError.message : ConfigError → String
  | read path cause => s!"failed to read config file {path}: {cause.message}"
  | parse path => s!"failed to parse config file {path}: "

def FileState.text (path : String) : FileState → Except ConfigError (Option String)
  | .missing => .ok none
  | .directory => .error (.read path .isDirectory)
  | .contents bytes =>
    match String.fromUTF8? ⟨bytes.toArray⟩ with
    | some text => .ok (some text)
    | none => .error (.read path .invalidText)

/--
Reads a configuration from a text. `origin` names the text in errors.
-/
def parseConfig {α : Type} (read : Document → Option α) (text origin : String) :
    Except ConfigError α :=
  match (Toml.parse text).bind read with
  | some config => .ok config
  | none => .error (.parse origin)

/--
Reads a configuration from a file. Where there is no file all settings have their defaults.
-/
def loadConfig {α : Type} (default : α) (read : Document → Option α) (path : String)
    (file : FileState) : Except ConfigError α :=
  match file.text path with
  | .error e => .error e
  | .ok none => .ok default
  | .ok (some text) => parseConfig read text path

/--
Appends to a path. An absolute path replaces it.
-/
def joinPath (base next : String) : String :=
  if next.startsWith "/" || base = "" then next
  else if base.endsWith "/" then base ++ next
  else base ++ "/" ++ next

def configDirectoryName : String := "netplay"

/--
The path of a configuration file in the home directory `home`. If the user has chosen a directory for
all configuration files, and by an absolute path, it lies there.
-/
def configPath (home : String) (chosen : Option String) (file : String) : String :=
  let base :=
    match chosen with
    | some dir => if dir.startsWith "/" then dir else joinPath home ".config"
    | none => joinPath home ".config"
  joinPath (joinPath base configDirectoryName) file

end PadRelay
