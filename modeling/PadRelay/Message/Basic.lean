/-!
This module contains the messages that emulators and the server exchange. Identifiers, ports and
statuses are kept as the plain numbers of the wire, since a peer may send any number there. A field
that a message leaves out has the default written here.
-/

namespace PadRelay

/--
Asks the server for a sign of life; the answer is the same message.
-/
structure Ping where
deriving DecidableEq, Repr, Inhabited

structure MakeConsoleRequest where
  title : String := ""
  romName : String := ""
  /-- The hash of the game image that all players of the console have to use. -/
  romHash : String := ""
deriving DecidableEq, Repr, Inhabited

structure MakeConsoleResponse where
  status : Int32 := 0
  consoleId : Int64 := 0
deriving DecidableEq, Repr, Inhabited

structure PlugRequest where
  consoleId : Int64 := 0
  port1 : Int32 := 0
  port2 : Int32 := 0
  port3 : Int32 := 0
  port4 : Int32 := 0
  /-- The number of frames by which the input of these ports is delayed. -/
  delayFrames : Int32 := 0
  romHash : String := ""
deriving DecidableEq, Repr, Inhabited

structure PortRejection where
  port : Int32 := 0
  reason : Int32 := 0
deriving DecidableEq, Repr, Inhabited

structure PlugResponse where
  status : Int32 := 0
  consoleId : Int64 := 0
  clientId : Int64 := 0
  ports : List Int32 := []
  /-- One verdict per requested port if the request was rejected. -/
  rejections : List PortRejection := []
deriving DecidableEq, Repr, Inhabited

structure StartRequest where
  consoleId : Int64 := 0
deriving DecidableEq, Repr, Inhabited

structure StartResponse where
  status : Int32 := 0
  consoleId : Int64 := 0
deriving DecidableEq, Repr, Inhabited

structure KeyState where
  consoleId : Int64 := 0
  frame : Int32 := 0
  port : Int32 := 0
  rightDPad : Bool := false
  leftDPad : Bool := false
  downDPad : Bool := false
  upDPad : Bool := false
  start : Bool := false
  zTrigger : Bool := false
  b : Bool := false
  a : Bool := false
  rightC : Bool := false
  leftC : Bool := false
  downC : Bool := false
  upC : Bool := false
  leftTrigger : Bool := false
  rightTrigger : Bool := false
  reserved1 : Bool := false
  reserved2 : Bool := false
  xAxis : Int32 := 0
  yAxis : Int32 := 0
deriving DecidableEq, Repr, Inhabited

structure ClientReady where
  consoleId : Int64 := 0
  clientId : Int64 := 0
deriving DecidableEq, Repr, Inhabited

/--
One port of a started game and the delay of its input.
-/
structure ConnectedPort where
  port : Int32 := 0
  delayFrames : Int32 := 0
deriving DecidableEq, Repr, Inhabited

/--
Tells all players of a console that the game starts and which ports take part.
-/
structure StartGame where
  consoleId : Int64 := 0
  ports : List ConnectedPort := []
deriving DecidableEq, Repr, Inhabited

structure InvalidData where
  consoleId : Int64 := 0
  port : Int32 := 0
  status : Int32 := 0
deriving DecidableEq, Repr, Inhabited

structure StopConsole where
  consoleId : Int64 := 0
deriving DecidableEq, Repr, Inhabited

structure OutgoingEvent where
  keys : List KeyState := []
  ready : Option ClientReady := none
deriving DecidableEq, Repr, Inhabited

structure IncomingEvent where
  keys : List KeyState := []
  start : Option StartGame := none
  invalid : List InvalidData := []
  stop : Option StopConsole := none
deriving DecidableEq, Repr, Inhabited

structure ShutDownRequest where
deriving DecidableEq, Repr, Inhabited

structure ShutDownResponse where
  willDie : Bool := false
deriving DecidableEq, Repr, Inhabited

end PadRelay
