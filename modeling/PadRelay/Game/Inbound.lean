import PadRelay.Message.Basic
import PadRelay.Rpc

/-!
This module contains event streams from the side of an emulator: the events that have arrived but were
not read yet, and how the stream ends.
-/

namespace PadRelay

inductive StreamEnd where
  | closed
  | failed (failure : RpcFailure)
deriving DecidableEq, Repr

/--
The end that a status stands for. Only a status with an error is a failure.
-/
def StreamEnd.ofStatus (status : RpcFailure) : StreamEnd :=
  if status.code = .ok then closed else failed status

structure Inbound where
  events : List IncomingEvent := []
  /-- The end of the stream, unless more events may arrive. -/
  ending : Option StreamEnd := none
deriving DecidableEq, Repr, Inhabited

structure EndRead where
  failure : RpcFailure
  ending : StreamEnd
deriving DecidableEq, Repr

namespace StreamEnd

def read : StreamEnd → EndRead
  | closed => ⟨.streamEnded, closed⟩
  -- A failure is reported to the first reader only.
  | failed failure => ⟨failure, closed⟩

end StreamEnd

inductive InboundRead where
  | event (e : IncomingEvent) (rest : Inbound)
  | ended (failure : RpcFailure) (rest : Inbound)
  | waiting
deriving DecidableEq, Repr

namespace Inbound

def read (i : Inbound) : InboundRead :=
  match i.events with
  | e :: events => .event e { i with events }
  | [] =>
    match i.ending with
    | none => .waiting
    | some ending => .ended ending.read.failure { i with ending := some ending.read.ending }

/--
Appends events that have arrived. Nothing arrives after the end.
-/
def deliver (i : Inbound) (events : List IncomingEvent) : Inbound :=
  if i.ending.isSome then i else { i with events := i.events ++ events }

/--
Ends the stream. The first end counts.
-/
def finish (i : Inbound) (ending : StreamEnd) : Inbound :=
  if i.ending.isSome then i else { i with ending := some ending }

end Inbound
end PadRelay
