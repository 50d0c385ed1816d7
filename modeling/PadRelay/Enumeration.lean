/-!
This module contains what all closed lists of named numbers have in common: a member has a number on
the wire, an upper case name in the schema and a short label for diagnostic text.
-/

namespace PadRelay

class Enumeration (α : Type) where
  members : List α
  number : α → Int32
  name : α → String
  label : α → String

namespace Enumeration

variable {α : Type} [Enumeration α]

def ofNumber? (n : Int32) : Option α :=
  members.find? fun a => number a == n

def ofName? (s : String) : Option α :=
  members.find? fun a => name a == s

/--
The member with the given number, where every number without a member reads as the default one.
-/
def ofNumber [Inhabited α] (n : Int32) : α :=
  (ofNumber? n).getD default

end Enumeration
end PadRelay
