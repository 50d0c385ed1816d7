import PadRelay.Console.Basic

/-!
This module contains the consoles of a server. A console that is over leaves the list, but events of
its members may still arrive after that, so it is kept.
-/

namespace PadRelay

structure LobbyEntry where
  console : Console
  listed : Bool := true
deriving DecidableEq

namespace LobbyEntry

/--
Takes a console off the list if it satisfies `p`.
-/
def delistIf (p : Console → Bool) (e : LobbyEntry) : LobbyEntry :=
  if p e.console then { e with listed := false } else e

end LobbyEntry

structure Lobby where
  /--
  All consoles that were ever opened, in the order of opening. A console is named by its position.
  -/
  consoles : List LobbyEntry := []
  consoleIds : IdSource := {}
  clientIds : IdSource := {}
  limit : Option Nat := none
deriving DecidableEq

namespace Lobby

def listed (l : Lobby) : List Console :=
  (l.consoles.filter (·.listed)).map (·.console)

def size (l : Lobby) : Nat :=
  l.listed.length

def console? (l : Lobby) (k : Nat) : Option Console :=
  (l.consoles[k]?).map (·.console)

/--
The position of the console that can be found under an identifier.
-/
def find? (l : Lobby) (id : ConsoleId) : Option Nat :=
  l.consoles.findIdx? fun e => e.listed && e.console.id = id

def lookup? (l : Lobby) (id : ConsoleId) : Option (Nat × Console) :=
  (l.find? id).bind fun k => (l.console? k).map fun c => (k, c)

def set (l : Lobby) (k : Nat) (c : Console) : Lobby :=
  { l with consoles := l.consoles.modify k fun e => { e with console := c } }

def removeFinished (l : Lobby) : Lobby :=
  { l with consoles := l.consoles.map (·.delistIf fun c => c.status = .done) }

def finishedCount (l : Lobby) : Nat :=
  (l.listed.filter fun c => c.status = .done).length

def create (l : Lobby) (title romName romHash : String) : Option ConsoleId × Lobby :=
  -- Consoles that are over do not count.
  let l := l.removeFinished
  if l.limit.any fun limit => limit ≤ l.size then
    (none, l)
  else
    let drawn := l.consoleIds.draw
    let id : ConsoleId := ⟨drawn.1⟩
    let c : Console := { id, title, romName, romHash }
    -- Should the identifier belong to an older console, that one can not be found any more.
    (some id, { l with
      consoles := l.consoles.map (·.delistIf fun c => c.id = id) ++ [{ console := c }]
      consoleIds := drawn.2 })

def stopListed : List LobbyEntry → Mailroom → List LobbyEntry × Mailroom
  | [], room => ([], room)
  | e :: rest, room =>
    let r := if e.listed then e.console.stop room else (e.console, room)
    let rs := stopListed rest r.2
    ({ e with console := r.1 } :: rs.1, rs.2)

def stopAll (l : Lobby) (room : Mailroom) : Lobby × Mailroom :=
  let r := stopListed l.consoles room
  ({ l with consoles := r.1 }, r.2)

/--
Assigns ports of a console. `k` is its position.
-/
def plug (l : Lobby) (k : Nat) (c : Console) (delay : Int32) (requested : List Port)
    (romHash : String) : Except PlugError (Plugged × Lobby) :=
  match c.plug l.clientIds delay requested romHash with
  | .error e => .error e
  | .ok p => .ok (p, { (l.set k p.console) with clientIds := p.ids })

end Lobby
end PadRelay
