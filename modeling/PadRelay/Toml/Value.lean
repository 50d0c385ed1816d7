import PadRelay.Toml.Moment
import PadRelay.Toml.Number
import PadRelay.Toml.Quoted
import PadRelay.Toml.Tree

/-!
This module contains the keys and values of TOML.
-/

namespace PadRelay.Toml

/--
How many parts a key has at least to be refused, and how deep values are nested at least to be refused.
-/
def nestingLimit : Nat := 80

def readKeyPart (cs : List Char) : Option (String × List Char) :=
  match readLine? cs with
  | some (part, rest) => some (String.ofList part, rest)
  | none =>
    match cs.takeWhile isBareKeyChar with
    | [] => none
    | part => some (String.ofList part, cs.dropWhile isBareKeyChar)

/--
Reads the parts of a key. The fuel bounds their number.
-/
def readKeyParts : (fuel : Nat) → List Char → Option (List String × List Char)
  | 0, _ => none
  | fuel + 1, cs =>
    match readKeyPart (skipBlanks cs) with
    | none => none
    | some (part, rest) =>
      match skipBlanks rest with
      | '.' :: rest => (readKeyParts fuel rest).map fun r => (part :: r.1, r.2)
      | rest => some ([part], rest)

/--
Reads a key and the blanks around it. It is given as the parts before the last one and the last one.
-/
def readKey (cs : List Char) : Option ((List String × String) × List Char) :=
  match readKeyParts nestingLimit cs with
  | none => none
  | some (parts, rest) =>
    match parts.getLast? with
    | none => none
    | some key => if parts.length < nestingLimit then some ((parts.dropLast, key), rest) else none

mutual

/--
Reads a value that lies inside of `depth` others. The fuel has to exceed the number of characters.
-/
def readValue (fuel depth : Nat) (cs : List Char) : Option (Document × List Char) :=
  match fuel with
  | 0 => none
  | fuel + 1 =>
    match cs with
    | '[' :: rest =>
      if depth + 1 < nestingLimit then
        (readElements fuel (depth + 1) rest).map fun r => (.list r.1, r.2)
      else
        none
    | '\x7b' :: rest =>
      if depth + 1 < nestingLimit then
        match skipBlanks rest with
        | '\x7d' :: rest => some (.table [], rest)
        | _ =>
          (readPairs fuel (depth + 1) [] rest).map fun r => (.table (documentsOf r.1), r.2)
      else
        none
    | 't' :: 'r' :: 'u' :: 'e' :: rest => some (.flag true, rest)
    | 'f' :: 'a' :: 'l' :: 's' :: 'e' :: rest => some (.flag false, rest)
    | cs =>
      match readText? cs with
      | some (text, rest) => some (.text (String.ofList text), rest)
      | none =>
        match readMoment cs with
        | some rest => some (.moment, rest)
        | none =>
          match readFloat cs with
          | some rest => some (.float, rest)
          | none => (readInteger cs).map fun r => (.int r.1, r.2)

/--
Reads the elements of a list and the bracket that ends it. A comma may follow the last element.
-/
def readElements (fuel depth : Nat) (cs : List Char) : Option (List Document × List Char) :=
  match fuel with
  | 0 => none
  | fuel + 1 =>
    match skipSpace false cs with
    | ']' :: rest => some ([], rest)
    | cs =>
      match readValue fuel depth cs with
      | none => none
      | some (d, rest) =>
        match skipSpace false rest with
        | ',' :: rest => (readElements fuel depth rest).map fun r => (d :: r.1, r.2)
        | ']' :: rest => some ([d], rest)
        | _ => none

def readPairs (fuel depth : Nat) (entries : Entries) (cs : List Char) :
    Option (Entries × List Char) :=
  match fuel with
  | 0 => none
  | fuel + 1 =>
    match readKey cs with
    | some ((path, key), '=' :: rest) =>
      match readValue fuel depth (skipBlanks rest) with
      | none => none
      | some (d, rest) =>
        match addKey path key d .header entries with
        | none => none
        | some (_, entries) =>
          match skipBlanks rest with
          | ',' :: rest => readPairs fuel depth entries rest
          | '\x7d' :: rest => some (entries, rest)
          | _ => none
    | _ => none

end

end PadRelay.Toml
