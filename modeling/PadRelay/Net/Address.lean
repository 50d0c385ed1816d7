/-!
This module contains the text of network addresses. An address is written in only one way, but a long
one may be read in several: any run of zero groups may be left out, and the last two groups may be
written like a short address.
-/

namespace PadRelay.Net

inductive Address where
  | v4 (a b c d : UInt8)
  | v6 (groups : Vector UInt16 8)
deriving DecidableEq, Repr

def hexDigit? (c : Char) : Option Nat :=
  if '0' ≤ c ∧ c ≤ '9' then some (c.toNat - '0'.toNat)
  else if 'a' ≤ c ∧ c ≤ 'f' then some (c.toNat - 'a'.toNat + 10)
  else if 'A' ≤ c ∧ c ≤ 'F' then some (c.toNat - 'A'.toNat + 10)
  else none

def readDigits (base : Nat) : (count value : Nat) → List Char → (Nat × Nat) × List Char
  | count, value, [] => ((count, value), [])
  | count, value, c :: rest =>
    match hexDigit? c with
    | none => ((count, value), c :: rest)
    | some d =>
      if d < base then readDigits base (count + 1) (value * base + d) rest
      else ((count, value), c :: rest)

def readOctet (cs : List Char) : Option (UInt8 × List Char) :=
  match readDigits 10 0 0 cs with
  | ((count, value), rest) =>
    if count = 0 ∨ 3 < count ∨ 255 < value ∨ (1 < count ∧ cs.head? = some '0') then none
    else some (UInt8.ofNat value, rest)

def readGroup (cs : List Char) : Option (UInt16 × List Char) :=
  match readDigits 16 0 0 cs with
  | ((count, value), rest) =>
    if count = 0 ∨ 4 < count then none else some (UInt16.ofNat value, rest)

def readChar (c : Char) : List Char → Option (List Char)
  | d :: rest => if d = c then some rest else none
  | [] => none

def readV4 (cs : List Char) : Option ((UInt8 × UInt8 × UInt8 × UInt8) × List Char) := do
  let (a, cs) ← readOctet cs
  let cs ← readChar '.' cs
  let (b, cs) ← readOctet cs
  let cs ← readChar '.' cs
  let (c, cs) ← readOctet cs
  let cs ← readChar '.' cs
  let (d, cs) ← readOctet cs
  return ((a, b, c, d), cs)

def groupsOfV4 (r : UInt8 × UInt8 × UInt8 × UInt8) : List UInt16 :=
  [r.1.toUInt16 * 256 + r.2.1.toUInt16, r.2.2.1.toUInt16 * 256 + r.2.2.2.toUInt16]

/--
Reads up to `limit` groups with colons between them. A short address may stand for the last two and
nothing follows it. The groups are given with whether they end with a short address.
-/
def readGroups : (limit : Nat) → (isFirst : Bool) → List Char →
    (List UInt16 × Bool) × List Char
  | 0, _, cs => (([], false), cs)
  | limit + 1, isFirst, cs =>
    match if isFirst then some cs else readChar ':' cs with
    | none => (([], false), cs)
    | some next =>
      let short := if 0 < limit then readV4 next else none
      match short with
      | some (a, rest) => ((groupsOfV4 a, true), rest)
      | none =>
        match readGroup next with
        | none => (([], false), cs)
        | some (g, rest) =>
          let r := readGroups limit false rest
          ((g :: r.1.1, r.1.2), r.2)

def ofGroups? (groups : List UInt16) : Option Address :=
  if h : groups.length = 8 then some (.v6 ⟨groups.toArray, by simpa using h⟩) else none

/--
Reads a long address. Two colons stand for at least one group of zeros.
-/
def readV6 (cs : List Char) : Option (Address × List Char) :=
  match readGroups 8 true cs with
  | ((head, endsShort), rest) =>
    if head.length = 8 then
      (ofGroups? head).map fun a => (a, rest)
    else if endsShort then
      none
    else
      match rest with
      | ':' :: ':' :: rest =>
        match readGroups (7 - head.length) true rest with
        | ((tail, _), rest) =>
          let zeros := List.replicate (8 - head.length - tail.length) 0
          (ofGroups? (head ++ zeros ++ tail)).map fun a => (a, rest)
      | _ => none

namespace Address

def ofText? (s : String) : Option Address :=
  let cs := s.toList
  match readV4 cs with
  | some ((a, b, c, d), rest) => if rest = [] then some (.v4 a b c d) else none
  | none =>
    match readV6 cs with
    | some (a, rest) => if rest = [] then some a else none
    | none => none

def v4Text (a b c d : UInt8) : String :=
  s!"{a.toNat}.{b.toNat}.{c.toNat}.{d.toNat}"

def groupText (g : UInt16) : String :=
  String.ofList (Nat.toDigits 16 g.toNat)

def groupsText (groups : List UInt16) : String :=
  ":".intercalate (groups.map groupText)

def leadingZeros (groups : List UInt16) : Nat :=
  (groups.takeWhile (· == 0)).length

/--
The start and the length of the longest run of zeros, and of several the first one. `start` is the
position of the list and `best` the best run before it.
-/
def longestZeros : (start : Nat) → (best : Nat × Nat) → List UInt16 → Nat × Nat
  | _, best, [] => best
  | start, best, g :: rest =>
    let n := leadingZeros (g :: rest)
    longestZeros (start + 1) (if best.2 < n then (start, n) else best) rest

/--
The text of a long address. The longest run of at least two zero groups is left out. An address that
embeds a short one shows it.
-/
def v6Text (groups : List UInt16) : String :=
  match groups with
  | [0, 0, 0, 0, 0, 0xffff, a, b] =>
    "::ffff:" ++
      v4Text (UInt8.ofNat (a.toNat / 256)) (UInt8.ofNat a.toNat)
        (UInt8.ofNat (b.toNat / 256)) (UInt8.ofNat b.toNat)
  | _ =>
    let run := longestZeros 0 (0, 0) groups
    if 1 < run.2 then
      groupsText (groups.take run.1) ++ "::" ++ groupsText (groups.drop (run.1 + run.2))
    else
      groupsText groups

def text : Address → String
  | v4 a b c d => v4Text a b c d
  | v6 groups => v6Text groups.toList

/--
The text of an address with a port. Brackets keep the colons of a long address apart.
-/
def textWithPort (a : Address) (port : UInt16) : String :=
  match a with
  | v4 .. => s!"{a.text}:{port.toNat}"
  | v6 .. => s!"[{a.text}]:{port.toNat}"

end Address
end PadRelay.Net
