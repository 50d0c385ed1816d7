/-!
This module contains the log of the points in time around calls and stream operations.
-/

namespace PadRelay

/--
The points that are logged. Each operation has one before and one after it.
-/
inductive TimingEvent where
  | plugRequest
  | plugResponse
  | readyWriteStart
  | readyWriteFinish
  | startReadStart
  | startReadFinish
  | keyWriteStart
  | keyWriteFinish
  | keyReadStart
  | keyReadFinish
  | remoteRequested
  | remoteReturned
deriving DecidableEq, Repr, Inhabited

namespace TimingEvent

def all : List TimingEvent :=
  [plugRequest, plugResponse, readyWriteStart, readyWriteFinish, startReadStart, startReadFinish,
    keyWriteStart, keyWriteFinish, keyReadStart, keyReadFinish, remoteRequested, remoteReturned]

def name : TimingEvent → String
  | plugRequest => "plug_controller_request"
  | plugResponse => "plug_controller_response"
  | readyWriteStart => "client_ready_write_start"
  | readyWriteFinish => "client_ready_write_finish"
  | startReadStart => "start_game_read_start"
  | startReadFinish => "start_game_read_finish"
  | keyWriteStart => "key_state_write_start"
  | keyWriteFinish => "key_state_write_finish"
  | keyReadStart => "key_state_read_start"
  | keyReadFinish => "key_state_read_finish"
  | remoteRequested => "remote_key_state_requested"
  | remoteReturned => "remote_key_state_returned"

def ofName? (s : String) : Option TimingEvent :=
  all.find? fun e => e.name == s

end TimingEvent

structure TimingEntry where
  event : TimingEvent
  nanos : UInt64
deriving DecidableEq, Repr, Inhabited

structure TimingLog where
  entries : List TimingEntry := []
deriving DecidableEq, Repr, Inhabited

namespace TimingLog

def record (log : TimingLog) (event : TimingEvent) (nanos : UInt64) : TimingLog :=
  ⟨log.entries ++ [⟨event, nanos⟩]⟩

def size (log : TimingLog) : Nat :=
  log.entries.length

def events (log : TimingLog) : List TimingEvent :=
  log.entries.map (·.event)

end TimingLog
end PadRelay
