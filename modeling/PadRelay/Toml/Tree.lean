import PadRelay.Document

/-!
This module contains the tables of a TOML file while they are being collected. A table may be opened
by a header of its own, be implied by the header of a table inside of it, or come from a dotted key,
and this decides in which ways it can still be extended.
-/

namespace PadRelay.Toml

inductive Origin where
  | header
  | implied
  | dotted
deriving DecidableEq, Repr

inductive Node where
  | value (d : Document)
  | table (origin : Origin) (entries : List (String × Node))
  /-- One table per header of the form `[[key]]`. -/
  | tables (elements : List (List (String × Node)))
deriving Inhabited

abbrev Entries := List (String × Node)

def alterEntry (key : String) (f : Option Node → Option Node) : Entries → Option Entries
  | [] => (f none).map fun n => [(key, n)]
  | (k, n) :: rest =>
    if k = key then (f (some n)).map fun n => (k, n) :: rest
    else (alterEntry key f rest).map fun rest => (k, n) :: rest

/--
Changes the table at the end of a path. Tables that are missing on the way are added. Of several tables
with the same header the last one is meant. A dotted path does not lead through a table that has a
header of its own.
-/
def alterTable (isDotted : Bool) (f : Origin → Entries → Option (Origin × Entries)) :
    (path : List String) → Origin → Entries → Option (Origin × Entries)
  | [], origin, entries => f origin entries
  | key :: path, origin, entries =>
    let step : Option Node → Option Node
      | none =>
        (alterTable isDotted f path (if isDotted then .dotted else .implied) []).map fun r =>
          .table r.1 r.2
      | some (.table o es) =>
        if isDotted && o = .header then none
        else (alterTable isDotted f path o es).map fun r => .table r.1 r.2
      | some (.tables ts) =>
        match ts.getLast? with
        | none => none
        | some es =>
          (alterTable isDotted f path .header es).map fun r => .tables (ts.dropLast ++ [r.2])
      | some (.value _) => none
    (alterEntry key step entries).map fun entries => (origin, entries)

/--
Adds a key that is not there yet to the table at the end of a dotted path. If there is a path the table
has to come from a dotted key as well.
-/
def addKey (path : List String) (key : String) (d : Document) (origin : Origin)
    (entries : Entries) : Option (Origin × Entries) :=
  let add : Origin → Entries → Option (Origin × Entries) := fun o es =>
    if path ≠ [] ∧ o ≠ .dotted then none
    else
      (alterEntry key (fun
        | none => some (.value d)
        | some _ => none) es).map fun es => (o, es)
  alterTable true add path origin entries

def openTable (path : List String) (key : String) (entries : Entries) : Option Entries :=
  let mark : Option Node → Option Node
    | none => some (.table .header [])
    | some (.table .implied es) => some (.table .header es)
    | some _ => none
  (alterTable false (fun o es => (alterEntry key mark es).map fun es => (o, es)) path .header
    entries).map (·.2)

def openElement (path : List String) (key : String) (entries : Entries) : Option Entries :=
  let mark : Option Node → Option Node
    | none => some (.tables [[]])
    | some (.tables ts) => some (.tables (ts ++ [[]]))
    | some _ => none
  (alterTable false (fun o es => (alterEntry key mark es).map fun es => (o, es)) path .header
    entries).map (·.2)

mutual

def Node.toDocument : Node → Document
  | .value d => d
  | .table _ entries => .table (documentsOf entries)
  | .tables elements => .list (elementsOf elements)

def documentsOf : Entries → List (String × Document)
  | [] => []
  | (k, n) :: rest => (k, n.toDocument) :: documentsOf rest

def elementsOf : List Entries → List Document
  | [] => []
  | es :: rest => .table (documentsOf es) :: elementsOf rest

end

end PadRelay.Toml
