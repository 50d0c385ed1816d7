import PadRelay.Enumeration
import PadRelay.SortedMap

/-!
This module contains the controller ports of a console. Requests may name a port or ask for any free
one; allocations only ever hand out one of the four controller ports.
-/

namespace PadRelay

inductive Port where
  /-- No port, and every number that names none. -/
  | unknown
  | one
  | two
  | three
  | four
  | any
deriving DecidableEq, Repr, Inhabited

namespace Port

instance : Enumeration Port where
  members := [unknown, one, two, three, four, any]
  number
    | unknown => 0
    | one => 1
    | two => 2
    | three => 3
    | four => 4
    | any => 5
  name
    | unknown => "UNKNOWN"
    | one => "PORT_1"
    | two => "PORT_2"
    | three => "PORT_3"
    | four => "PORT_4"
    | any => "PORT_ANY"
  label
    | unknown => "Unknown"
    | one => "Port1"
    | two => "Port2"
    | three => "Port3"
    | four => "Port4"
    | any => "PortAny"

def number (p : Port) : Int32 :=
  Enumeration.number p

def label (p : Port) : String :=
  Enumeration.label p

/--
The port with the given number, where every number without a port reads as `unknown`.
-/
def ofNumber (n : Int32) : Port :=
  (Enumeration.ofNumber? n).getD unknown

@[simp]
theorem ofNumber_number (p : Port) : ofNumber p.number = p := by
  cases p <;> decide

instance : Ranked Port where
  rank p := p.number.toInt
  rank_inj := by
    intro a b h
    cases a <;> cases b <;> first | rfl | (exact absurd h (by decide))

def controllers : List Port :=
  [one, two, three, four]

def isController (p : Port) : Bool :=
  p ∈ controllers

def isRequest (p : Port) : Bool :=
  p.isController || p == any

def slot? : Port → Option (Fin 4)
  | one => some 0
  | two => some 1
  | three => some 2
  | four => some 3
  | unknown | any => none

def ofSlot? (i : Nat) : Option Port :=
  controllers[i]?

theorem ofSlot?_of_slot? {p : Port} {i : Fin 4} (h : p.slot? = some i) : ofSlot? i = some p := by
  cases p <;> simp_all [slot?, ofSlot?, controllers] <;> subst h <;> rfl

/--
Sorts ports by their numbers. Since `any` has the highest number it comes after all named ports.
-/
def sort (ports : List Port) : List Port :=
  ports.mergeSort fun a b => rank a ≤ rank b

def listText (ports : List Port) : String :=
  "[" ++ ", ".intercalate (ports.map label) ++ "]"

end Port

abbrev PortSet := SortedMap Port Unit

namespace PortSet

def ofList (ports : List Port) : PortSet :=
  SortedMap.ofList (ports.map fun p => (p, ()))

def toList (s : PortSet) : List Port :=
  s.keys

end PortSet
end PadRelay
