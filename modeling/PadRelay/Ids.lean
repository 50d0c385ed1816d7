import PadRelay.SortedMap

/-!
This module contains the identifiers of consoles and clients and the counter they are drawn from.
Both are plain 64 bit numbers on the wire. They have types of their own so that one can not be used
where the other one is expected.
-/

namespace PadRelay

structure ConsoleId where
  value : Int64 := 0
deriving DecidableEq, Repr, Inhabited

structure ClientId where
  value : Int64 := 0
deriving DecidableEq, Repr, Inhabited

instance : Ranked ConsoleId where
  rank i := rank i.value
  rank_inj := by
    intro a b h
    cases a
    cases b
    exact congrArg _ (rank_inj h)

instance : Ranked ClientId where
  rank i := rank i.value
  rank_inj := by
    intro a b h
    cases a
    cases b
    exact congrArg _ (rank_inj h)

namespace ConsoleId

def isValid (i : ConsoleId) : Bool :=
  0 < i.value

def text (i : ConsoleId) : String :=
  toString i.value.toInt

def debugText (i : ConsoleId) : String :=
  s!"ConsoleId({i.text})"

end ConsoleId

namespace ClientId

def isValid (i : ClientId) : Bool :=
  0 < i.value

def text (i : ClientId) : String :=
  toString i.value.toInt

def debugText (i : ClientId) : String :=
  s!"ClientId({i.text})"

end ClientId

/--
A counter that hands out identifiers in ascending order and wraps around after the largest number.
-/
structure IdSource where
  next : Int64 := 1
deriving DecidableEq, Repr, Inhabited

namespace IdSource

def draw (s : IdSource) : Int64 × IdSource :=
  (s.next, ⟨s.next + 1⟩)

end IdSource
end PadRelay
