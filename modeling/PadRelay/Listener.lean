import PadRelay.ClientError
import PadRelay.Config.Server
import PadRelay.Server

/-!
This module contains servers that can be reached: a server, the port that it listens on, and the endpoints
that lead there. Which ones do is not decided here: it depends on the network and on its names.
-/

namespace PadRelay

/--
Whether an endpoint is a port of the machine itself, which can be reached without a network.
-/
def Net.Endpoint.isLoopback (port : UInt16) (e : Net.Endpoint) : Bool :=
  let isSelf :=
    e.host = "localhost" ||
      match Net.Address.ofText? e.host with
      | some (.v4 a _ _ _) => a = 127
      | _ => false
  isSelf && e.port = port

structure Listener where
  port : UInt16
  server : Server
  /-- Whether a connection to an endpoint ends up at this port. -/
  leadsHere : Net.Endpoint → Bool

namespace Listener

/--
Starts a server as it is configured. If the port is not fixed it listens on `freePort`. As long as there is
no network it is reached from the same machine only.
-/
def start (config : ServerConfig) (freePort : UInt16)
    (leadsHere : UInt16 → Net.Endpoint → Bool := Net.Endpoint.isLoopback) : Listener :=
  let port := if config.port = 0 then freePort else config.port
  { port
    server := { testMode := config.testMode, lobby := { limit := config.effectiveMaxConsoles } }
    leadsHere := leadsHere port }

/--
Whether a connection to an endpoint gets through. A server that was asked to shut down takes none.
-/
def reaches (l : Listener) (e : Net.Endpoint) : Bool :=
  l.leadsHere e && !l.server.stopping

def connect (l : Listener) (e : Net.Endpoint) : Except ClientError Unit :=
  if !e.isValid then .error (.invalidEndpoint e)
  else if !l.reaches e then .error (.connect e)
  else .ok ()

end Listener
end PadRelay
