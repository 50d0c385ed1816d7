/-!
This module contains structured documents as they are read from files and requests, without the
notation that they were written in. What no reader asks for, such as fractions and dates, keeps its
kind only.
-/

namespace PadRelay

inductive Document where
  | null
  | flag (value : Bool)
  | int (value : Int)
  | float
  | moment
  | text (value : String)
  | list (elements : List Document)
  | table (entries : List (String × Document))
deriving Repr, Inhabited

def valueOf? {α : Type} (key : String) (entries : List (String × α)) : Option α :=
  entries.lookup key

namespace Document

def int? (low high : Int) : Document → Option Int
  | int n => if low ≤ n ∧ n ≤ high then some n else none
  | _ => none

def flag? : Document → Option Bool
  | flag b => some b
  | _ => none

def text? : Document → Option String
  | text s => some s
  | _ => none

def list? : Document → Option (List Document)
  | list l => some l
  | _ => none

/--
The setting with the given name, if it is there. It is an error if it can not be read.
-/
def setting {α : Type} (entries : List (String × Document)) (name : String) (default : α)
    (read : Document → Option α) : Option α :=
  match valueOf? name entries with
  | none => some default
  | some d => read d

def isEmptyGroup : Document → Bool
  | list [] => true
  | table [] => true
  | _ => false

/--
The name of a variant without contents: either a text, or a table whose only key is the name and whose
value `isUnit` accepts as nothing.
-/
def variant? (isUnit : Document → Bool) : Document → Option String
  | text s => some s
  | table [(s, d)] => if isUnit d then some s else none
  | _ => none

end Document
end PadRelay
