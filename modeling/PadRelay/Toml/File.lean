import PadRelay.Toml.Value

/-!
This module contains TOML files: a sequence of lines that open tables or set keys. No key is set twice
and no table is opened twice.
-/

namespace PadRelay.Toml

inductive Line where
  | blank
  /-- Sets a key of the table that was opened last. -/
  | set (path : List String) (key : String) (d : Document)
  | table (path : List String) (key : String)
  /-- Opens one more of several tables with the same header. -/
  | element (path : List String) (key : String)

def readStatement (cs : List Char) : Option (Line × List Char) :=
  match skipBlanks cs with
  | [] => some (.blank, [])
  | '#' :: rest => some (.blank, '#' :: rest)
  | '\n' :: rest => some (.blank, '\n' :: rest)
  | '\r' :: rest => some (.blank, '\r' :: rest)
  | '[' :: '[' :: rest =>
    match readKey rest with
    | some ((path, key), ']' :: ']' :: rest) => some (.element path key, rest)
    | _ => none
  | '[' :: rest =>
    match readKey rest with
    | some ((path, key), ']' :: rest) => some (.table path key, rest)
    | _ => none
  | cs =>
    match readKey cs with
    | some ((path, key), '=' :: rest) =>
      (readValue (rest.length + 1) 0 (skipBlanks rest)).map fun r => (.set path key r.1, r.2)
    | _ => none

/--
Reads all lines of a file. The fuel has to exceed the number of characters.
-/
def readLines : (fuel : Nat) → List Char → Option (List Line)
  | 0, _ => none
  | _ + 1, [] => some []
  | fuel + 1, cs =>
    match readStatement cs with
    | none => none
    | some (line, rest) =>
      match endLine rest with
      | none => none
      | some rest => (readLines fuel rest).map fun lines => line :: lines

/--
The tables that lines have built so far and the path to the one that was opened last.
-/
structure Builder where
  root : Entries := []
  current : List String := []

namespace Builder

def add (b : Builder) : Line → Option Builder
  | .blank => some b
  | .set path key d =>
    (alterTable false (addKey path key d) b.current .header b.root).map fun r =>
      { b with root := r.2 }
  | .table path key =>
    (openTable path key b.root).map fun root => { root, current := path ++ [key] }
  | .element path key =>
    (openElement path key b.root).map fun root => { root, current := path ++ [key] }

end Builder

def ofLines (lines : List Line) : Option Document :=
  (lines.foldlM Builder.add {}).map fun b => .table (documentsOf b.root)

def dropByteOrderMark : List Char → List Char
  | '\ufeff' :: rest => rest
  | cs => cs

def parse (text : String) : Option Document :=
  let cs := dropByteOrderMark text.toList
  (readLines (cs.length + 1) cs).bind ofLines

end PadRelay.Toml
