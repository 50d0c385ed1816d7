import PadRelay.Message.Basic
import PadRelay.Pad

/-!
This module contains the codings of buttons in messages. An emulator chooses the type of its buttons
and a coding for it; both directions may fail.
-/

namespace PadRelay

inductive Axis where
  | x
  | y
deriving DecidableEq, Repr

def Axis.text : Axis → String
  | x => "x"
  | y => "y"

inductive CoderError where
  /-- The position on an axis does not fit into eight bits. -/
  | axisOutOfRange (axis : Axis) (value : Int32)
deriving DecidableEq, Repr

def CoderError.label : CoderError → String
  | axisOutOfRange _ _ => "AxisOutOfRange"

def CoderError.message : CoderError → String
  | axisOutOfRange axis value => s!"{axis.text} axis value {value.toInt} out of range"

structure Coder (β : Type) where
  /-- Writes the buttons into a message and leaves its routing fields alone. -/
  encode : β → KeyState → Except CoderError KeyState
  decode : KeyState → Except CoderError β

def readAxis (axis : Axis) (value : Int32) : Except CoderError Int8 :=
  if -128 ≤ value ∧ value ≤ 127 then .ok value.toInt8 else .error (.axisOutOfRange axis value)

namespace Coder

def pad : Coder Pad where
  encode p k := .ok { k with
    rightDPad := p.rightDPad
    leftDPad := p.leftDPad
    downDPad := p.downDPad
    upDPad := p.upDPad
    start := p.start
    zTrigger := p.zTrigger
    b := p.b
    a := p.a
    rightC := p.rightC
    leftC := p.leftC
    downC := p.downC
    upC := p.upC
    rightTrigger := p.rightTrigger
    leftTrigger := p.leftTrigger
    reserved1 := p.reserved1
    reserved2 := p.reserved2
    xAxis := p.xAxis.toInt32
    yAxis := p.yAxis.toInt32 }
  decode k :=
    match readAxis .x k.xAxis with
    | .error e => .error e
    | .ok xAxis =>
      match readAxis .y k.yAxis with
      | .error e => .error e
      | .ok yAxis => .ok {
          rightDPad := k.rightDPad
          leftDPad := k.leftDPad
          downDPad := k.downDPad
          upDPad := k.upDPad
          start := k.start
          zTrigger := k.zTrigger
          b := k.b
          a := k.a
          rightC := k.rightC
          leftC := k.leftC
          downC := k.downC
          upC := k.upC
          rightTrigger := k.rightTrigger
          leftTrigger := k.leftTrigger
          reserved1 := k.reserved1
          reserved2 := k.reserved2
          xAxis
          yAxis }

def word : Coder UInt32 where
  encode w k := .ok { k with xAxis := w.toInt32 }
  decode k := .ok k.xAxis.toUInt32

end Coder
end PadRelay
