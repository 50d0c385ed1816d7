/-!
This module contains the state of a controller pad and the 32 bit word that hardware uses for it.
-/

namespace PadRelay

structure Pad where
  rightDPad : Bool := false
  leftDPad : Bool := false
  downDPad : Bool := false
  upDPad : Bool := false
  start : Bool := false
  zTrigger : Bool := false
  b : Bool := false
  a : Bool := false
  rightC : Bool := false
  leftC : Bool := false
  downC : Bool := false
  upC : Bool := false
  rightTrigger : Bool := false
  leftTrigger : Bool := false
  reserved1 : Bool := false
  reserved2 : Bool := false
  xAxis : Int8 := 0
  yAxis : Int8 := 0
deriving DecidableEq, Repr, Inhabited

structure PadButton where
  name : String
  get : Pad → Bool
  set : Bool → Pad → Pad

namespace Pad

def buttons : List PadButton :=
  [⟨"right_d_pad", (·.rightDPad), fun v p => { p with rightDPad := v }⟩,
    ⟨"left_d_pad", (·.leftDPad), fun v p => { p with leftDPad := v }⟩,
    ⟨"down_d_pad", (·.downDPad), fun v p => { p with downDPad := v }⟩,
    ⟨"up_d_pad", (·.upDPad), fun v p => { p with upDPad := v }⟩,
    ⟨"start", (·.start), fun v p => { p with start := v }⟩,
    ⟨"z_trigger", (·.zTrigger), fun v p => { p with zTrigger := v }⟩,
    ⟨"b", (·.b), fun v p => { p with b := v }⟩,
    ⟨"a", (·.a), fun v p => { p with a := v }⟩,
    ⟨"right_c", (·.rightC), fun v p => { p with rightC := v }⟩,
    ⟨"left_c", (·.leftC), fun v p => { p with leftC := v }⟩,
    ⟨"down_c", (·.downC), fun v p => { p with downC := v }⟩,
    ⟨"up_c", (·.upC), fun v p => { p with upC := v }⟩,
    ⟨"right_trigger", (·.rightTrigger), fun v p => { p with rightTrigger := v }⟩,
    ⟨"left_trigger", (·.leftTrigger), fun v p => { p with leftTrigger := v }⟩,
    ⟨"reserved_1", (·.reserved1), fun v p => { p with reserved1 := v }⟩,
    ⟨"reserved_2", (·.reserved2), fun v p => { p with reserved2 := v }⟩]

def flags (p : Pad) : List Bool :=
  buttons.map fun button => button.get p

/--
The word of a pad: a bit for each button, above them the horizontal axis and on top the vertical one.
-/
def toRaw (p : Pad) : UInt32 :=
  .ofBitVec (p.yAxis.toBitVec ++ (p.xAxis.toBitVec ++ (BitVec.ofBoolListLE p.flags : BitVec 16)))

/--
The pad that a word stands for. Every word stands for one.
-/
def ofRaw (raw : UInt32) : Pad where
  rightDPad := raw.toBitVec.getLsbD 0
  leftDPad := raw.toBitVec.getLsbD 1
  downDPad := raw.toBitVec.getLsbD 2
  upDPad := raw.toBitVec.getLsbD 3
  start := raw.toBitVec.getLsbD 4
  zTrigger := raw.toBitVec.getLsbD 5
  b := raw.toBitVec.getLsbD 6
  a := raw.toBitVec.getLsbD 7
  rightC := raw.toBitVec.getLsbD 8
  leftC := raw.toBitVec.getLsbD 9
  downC := raw.toBitVec.getLsbD 10
  upC := raw.toBitVec.getLsbD 11
  rightTrigger := raw.toBitVec.getLsbD 12
  leftTrigger := raw.toBitVec.getLsbD 13
  reserved1 := raw.toBitVec.getLsbD 14
  reserved2 := raw.toBitVec.getLsbD 15
  xAxis := .ofBitVec (raw.toBitVec.extractLsb' 16 8)
  yAxis := .ofBitVec (raw.toBitVec.extractLsb' 24 8)

end Pad
end PadRelay
