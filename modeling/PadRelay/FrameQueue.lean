import PadRelay.SortedMap

/-!
This module contains the queue of a port: the buttons for frames to come. Buttons are put in any order
under the number of the frame that they were pressed in and are stored under that number plus the
delay of the queue. They are read strictly in order, where the frames within the initial delay have
the default buttons.
-/

namespace PadRelay

inductive QueueError where
  | negativeFrame (frame : Int32)
  | withinInitialDelay (frame initial : Int32)
  | alreadyRequested (frame latest : Int32)
  | duplicate (frame : Int32)
  | unexpectedFrame (requested expected : Int32)
  | timeout (frame : Int32)
  | frameOverflow (frame delay : Int32)
deriving DecidableEq, Repr

def QueueError.label : QueueError → String
  | negativeFrame _ => "NegativeFrame"
  | withinInitialDelay _ _ => "WithinInitialDelay"
  | alreadyRequested _ _ => "AlreadyRequested"
  | duplicate _ => "Duplicate"
  | unexpectedFrame _ _ => "UnexpectedFrame"
  | timeout _ => "Timeout"
  | frameOverflow _ _ => "FrameOverflow"

def QueueError.message : QueueError → String
  | negativeFrame frame => s!"invalid frame {frame.toInt}"
  | withinInitialDelay frame initial =>
    s!"delayed frame {frame.toInt} is within the initial delay of {initial.toInt} frames"
  | alreadyRequested frame latest =>
    s!"delayed frame {frame.toInt} was already requested (latest request {latest.toInt})"
  | duplicate frame => s!"duplicate buttons for delayed frame {frame.toInt}"
  | unexpectedFrame requested expected =>
    s!"unexpected frame {requested.toInt}, expected {expected.toInt}"
  | timeout frame => s!"timed out waiting for frame {frame.toInt}"
  | frameOverflow frame delay =>
    s!"frame {frame.toInt} shifted by {delay.toInt} frames overflows"

def addFrames? (a b : Int32) : Option Int32 :=
  let sum := a.toInt + b.toInt
  if Int32.minValue.toInt ≤ sum ∧ sum ≤ Int32.maxValue.toInt then some (Int32.ofInt sum) else none

/--
A checked sum is the exact one, and it is missing only if no number of 32 bits is the exact one.
-/
theorem addFrames?_eq_some_iff {a b c : Int32} :
    addFrames? a b = some c ↔ c.toInt = a.toInt + b.toInt := by
  have hle := Int32.le_toInt c
  have hlt := Int32.toInt_lt c
  simp only [addFrames?, Int32.toInt_minValue, Int32.toInt_maxValue]
  split
  . have hsum : (Int32.ofInt (a.toInt + b.toInt)).toInt = a.toInt + b.toInt :=
      Int32.toInt_ofInt_of_le (by omega) (by omega)
    rw [Option.some.injEq, ← Int32.toInt_inj, hsum]
    exact eq_comm
  . constructor
    . simp
    . intro h
      omega

structure FrameQueue (β : Type) where
  /-- What is added to the number of a frame when its buttons are put. -/
  delay : Int32
  /-- The number of frames that have the default buttons. -/
  initial : Int32
  latest : Int32 := -1
  /-- The buttons that are not read yet, by delayed frame. -/
  frames : SortedMap Int32 β := ∅
deriving DecidableEq

namespace FrameQueue

variable {β : Type}

/--
The queue of a port of this emulator. Its own input counts from frame zero, so it is delayed here.
-/
def forLocal (delay : Int32) : FrameQueue β :=
  { delay := delay, initial := delay }

/--
The queue of a port of another emulator. That input arrives with delayed frame numbers.
-/
def forRemote (delay : Int32) : FrameQueue β :=
  { delay := 0, initial := delay }

def size (q : FrameQueue β) : Nat :=
  q.frames.size

def put (q : FrameQueue β) (frame : Int32) (buttons : β) : Except QueueError (FrameQueue β) :=
  if frame < 0 then
    .error (.negativeFrame frame)
  else
    match addFrames? frame q.delay with
    | none => .error (.frameOverflow frame q.delay)
    | some delayed =>
      if delayed < q.initial then .error (.withinInitialDelay delayed q.initial)
      else if delayed ≤ q.latest then .error (.alreadyRequested delayed q.latest)
      else if q.frames.contains delayed then .error (.duplicate delayed)
      else .ok { q with frames := q.frames.insert delayed buttons }

def get [Inhabited β] (q : FrameQueue β) (frame : Int32) :
    Except QueueError (β × FrameQueue β) :=
  -- Unlike the sum in `put` this one is not checked: it wraps around behind the last frame.
  let expected := q.latest + 1
  if frame ≠ expected then
    .error (.unexpectedFrame frame expected)
  else if frame < q.initial then
    .ok (default, { q with latest := frame })
  else
    match q.frames.get? frame with
    -- The reader would have to wait for a writer.
    | none => .error (.timeout frame)
    | some buttons => .ok (buttons, { q with latest := frame, frames := q.frames.erase frame })

end FrameQueue
end PadRelay
