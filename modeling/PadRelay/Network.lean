import PadRelay.Session

/-!
This module contains networks: a server that can be reached and all sessions on it. The parts act one
after the other, and events may stay on their way for as long as one likes; `settle` lets all of them
arrive.
-/

namespace PadRelay

structure Network (β : Type) where
  listener : Listener
  /-- The sessions in the order of joining. One that was left leaves its place empty. -/
  sessions : List (Option (Session β)) := []

namespace Network

variable {β : Type}

def server (n : Network β) : Server :=
  n.listener.server

def setServer (n : Network β) (server : Server) : Network β :=
  { n with listener := { n.listener with server } }

def session? (n : Network β) (i : Nat) : Option (Session β) :=
  (n.sessions[i]?).join

def setSession (n : Network β) (i : Nat) (s : Session β) : Network β :=
  { n with sessions := n.sessions.set i (some s) }

def addSession (n : Network β) (r : Except ClientError (Session β) × Listener) :
    Except ClientError (Session β) × Network β :=
  match r.1 with
  | .error e => (.error e, { n with listener := r.2 })
  | .ok s => (.ok s, { listener := r.2, sessions := n.sessions ++ [some s] })

def join (n : Network β) (config : ClientConfig) : Except ClientError (Session β) × Network β :=
  n.addSession (Session.join config n.listener)

def joinFromFile (n : Network β) (path : String) (file : FileState) :
    Except ClientError (Session β) × Network β :=
  n.addSession (Session.joinFromFile path file n.listener)

def leave (n : Network β) (i : Nat) : Network β :=
  match n.session? i with
  | none => n
  | some s => { n.setServer (s.leave n.server) with sessions := n.sessions.set i none }

/--
Lets `f` act on each session in turn.
-/
def visit (f : Session β → Server → Session β × Server) : List (Option (Session β)) → Server →
    List (Option (Session β)) × Server
  | [], server => ([], server)
  | none :: rest, server =>
    let r := visit f rest server
    (none :: r.1, r.2)
  | some s :: rest, server =>
    let acted := f s server
    let r := visit f rest acted.2
    (some acted.1 :: r.1, r.2)

/--
Lets `f` act on each session of the network in turn.
-/
def visitAll (f : Session β → Server → Session β × Server) (n : Network β) : Network β :=
  let r := visit f n.sessions n.server
  { n.setServer r.2 with sessions := r.1 }

def settle (n : Network β) : Network β :=
  (n.visitAll Session.transmitAll).visitAll Session.fetch

end Network
end PadRelay
