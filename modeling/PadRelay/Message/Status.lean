import PadRelay.Enumeration

/-!
This module contains the closed lists of statuses and reasons that occur in answers and events.
-/

namespace PadRelay

inductive MakeConsoleStatus where
  | unknown
  | success
  | unspecifiedFailure
deriving DecidableEq, Repr, Inhabited

instance : Enumeration MakeConsoleStatus where
  members := [.unknown, .success, .unspecifiedFailure]
  number
    | .unknown => 0
    | .success => 1
    | .unspecifiedFailure => 2
  name
    | .unknown => "UNKNOWN"
    | .success => "SUCCESS"
    | .unspecifiedFailure => "UNSPECIFIED_FAILURE"
  label
    | .unknown => "Unknown"
    | .success => "Success"
    | .unspecifiedFailure => "UnspecifiedFailure"

inductive PlugStatus where
  | unknown
  | success
  | unspecifiedFailure
  | romMismatch
  | noPortsRequested
  | portRequestRejected
deriving DecidableEq, Repr, Inhabited

instance : Enumeration PlugStatus where
  members :=
    [.unknown, .success, .unspecifiedFailure, .romMismatch, .noPortsRequested, .portRequestRejected]
  number
    | .unknown => 0
    | .success => 1
    | .unspecifiedFailure => 2
    | .romMismatch => 3
    | .noPortsRequested => 4
    | .portRequestRejected => 5
  name
    | .unknown => "UNKNOWN"
    | .success => "SUCCESS"
    | .unspecifiedFailure => "UNSPECIFIED_FAILURE"
    | .romMismatch => "ROM_MD5_MISMATCH"
    | .noPortsRequested => "NO_PORTS_REQUESTED"
    | .portRequestRejected => "PORT_REQUEST_REJECTED"
  label
    | .unknown => "Unknown"
    | .success => "Success"
    | .unspecifiedFailure => "UnspecifiedFailure"
    | .romMismatch => "RomMd5Mismatch"
    | .noPortsRequested => "NoPortsRequested"
    | .portRequestRejected => "PortRequestRejected"

inductive StartStatus where
  | unknown
  | success
  | unspecifiedFailure
deriving DecidableEq, Repr, Inhabited

instance : Enumeration StartStatus where
  members := [.unknown, .success, .unspecifiedFailure]
  number
    | .unknown => 0
    | .success => 1
    | .unspecifiedFailure => 2
  name
    | .unknown => "UNKNOWN"
    | .success => "SUCCESS"
    | .unspecifiedFailure => "UNSPECIFIED_FAILURE"
  label
    | .unknown => "Unknown"
    | .success => "Success"
    | .unspecifiedFailure => "UnspecifiedFailure"

inductive InvalidDataStatus where
  | unknown
  | invalidConsole
  | invalidPort
  | invalidClient
  | clientNotReady
deriving DecidableEq, Repr, Inhabited

instance : Enumeration InvalidDataStatus where
  members := [.unknown, .invalidConsole, .invalidPort, .invalidClient, .clientNotReady]
  number
    | .unknown => 0
    | .invalidConsole => 1
    | .invalidPort => 2
    | .invalidClient => 3
    | .clientNotReady => 4
  name
    | .unknown => "UNKNOWN"
    | .invalidConsole => "INVALID_CONSOLE"
    | .invalidPort => "INVALID_PORT"
    | .invalidClient => "INVALID_CLIENT"
    | .clientNotReady => "CLIENT_NOT_READY"
  label
    | .unknown => "Unknown"
    | .invalidConsole => "InvalidConsole"
    | .invalidPort => "InvalidPort"
    | .invalidClient => "InvalidClient"
    | .clientNotReady => "ClientNotReady"

inductive PortVerdict where
  | unknown
  | acceptable
  | portAlreadyOccupied
  | allPortsOccupied
deriving DecidableEq, Repr, Inhabited

instance : Enumeration PortVerdict where
  members := [.unknown, .acceptable, .portAlreadyOccupied, .allPortsOccupied]
  number
    | .unknown => 0
    | .acceptable => 1
    | .portAlreadyOccupied => 2
    | .allPortsOccupied => 3
  name
    | .unknown => "UNKNOWN"
    | .acceptable => "ACCEPTABLE"
    | .portAlreadyOccupied => "PORT_ALREADY_OCCUPIED"
    | .allPortsOccupied => "ALL_PORTS_OCCUPIED"
  label
    | .unknown => "Unknown"
    | .acceptable => "Acceptable"
    | .portAlreadyOccupied => "PortAlreadyOccupied"
    | .allPortsOccupied => "AllPortsOccupied"

end PadRelay
