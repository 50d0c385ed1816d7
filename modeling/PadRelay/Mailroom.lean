import PadRelay.Message.Basic

/-!
This module contains the mailboxes in which the server leaves events for emulators. A mailbox holds a
limited number of events, so an emulator that does not read can not make the server wait.
-/

namespace PadRelay

structure Mailbox where
  capacity : Nat
  /-- The events that were not collected yet, oldest first. -/
  pending : List IncomingEvent := []
  hasSender : Bool := true
  hasReader : Bool := true
deriving DecidableEq, Repr, Inhabited

inductive PostResult where
  | delivered
  | full
  | gone
deriving DecidableEq, Repr

namespace Mailbox

def post (b : Mailbox) (e : IncomingEvent) : PostResult × Mailbox :=
  -- A mailbox without a reader takes nothing, whether it has room or not.
  if !b.hasReader then (.gone, b)
  else if b.pending.length < b.capacity then (.delivered, { b with pending := b.pending ++ [e] })
  else (.full, b)

/--
Takes the oldest `n` events out, or all if there are fewer.
-/
def take (b : Mailbox) (n : Nat) : List IncomingEvent × Mailbox :=
  (b.pending.take n, { b with pending := b.pending.drop n })

/--
Gives up sending. What is pending can still be collected.
-/
def closeSender (b : Mailbox) : Mailbox :=
  { b with hasSender := false }

/--
Gives up reading. What is pending is lost.
-/
def closeReader (b : Mailbox) : Mailbox :=
  { b with hasReader := false, pending := [] }

end Mailbox

/--
All mailboxes that were ever opened. A mailbox is named by its position.
-/
structure Mailroom where
  boxes : List Mailbox := []
deriving DecidableEq, Repr, Inhabited

namespace Mailroom

def nextBox (room : Mailroom) : Nat :=
  room.boxes.length

def openBox (room : Mailroom) (capacity : Nat) : Mailroom :=
  ⟨room.boxes ++ [{ capacity := capacity }]⟩

def post (room : Mailroom) (i : Nat) (e : IncomingEvent) : PostResult × Mailroom :=
  match room.boxes[i]? with
  | none => (.gone, room)
  | some b =>
    let r := b.post e
    (r.1, ⟨room.boxes.set i r.2⟩)

def pending (room : Mailroom) (i : Nat) : List IncomingEvent :=
  ((room.boxes[i]?).map (·.pending)).getD []

/--
Takes the oldest `n` events out of a mailbox.
-/
def take (room : Mailroom) (i n : Nat) : List IncomingEvent × Mailroom :=
  match room.boxes[i]? with
  | none => ([], room)
  | some b =>
    let r := b.take n
    (r.1, ⟨room.boxes.set i r.2⟩)

def collect (room : Mailroom) (i : Nat) : List IncomingEvent × Mailroom :=
  room.take i (room.pending i).length

def closeSender (room : Mailroom) (i : Nat) : Mailroom :=
  ⟨room.boxes.modify i Mailbox.closeSender⟩

def closeReader (room : Mailroom) (i : Nat) : Mailroom :=
  ⟨room.boxes.modify i Mailbox.closeReader⟩

end Mailroom
end PadRelay
