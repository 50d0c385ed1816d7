import PadRelay.Message.Status
import PadRelay.Port

/-!
This module contains the rules by which requested ports are assigned. Named ports are served before
requests for any port, and each of the latter gets the lowest port that is free by then. If one request
can not be served none is.
-/

namespace PadRelay

/--
The verdict on a request when the ports in `taken` are not free: the port that it is about and whether
that port can be assigned.
-/
def judge (taken : PortSet) (request : Port) : Port × PortVerdict :=
  if request = .any then
    match Port.controllers.find? fun p => !taken.contains p with
    | some p => (p, .acceptable)
    | none => (.any, .allPortsOccupied)
  else if taken.contains request then
    (request, .portAlreadyOccupied)
  else
    (request, .acceptable)

def judgeAll (taken : PortSet) : List Port → List (Port × PortVerdict)
  | [] => []
  | request :: rest =>
    let verdict := judge taken request
    -- A port that one request gets is taken for the next ones.
    let taken := if verdict.2 = .acceptable then taken.insert verdict.1 () else taken
    verdict :: judgeAll taken rest

def allAcceptable (verdicts : List (Port × PortVerdict)) : Bool :=
  verdicts.all fun v => v.2 = .acceptable

end PadRelay
