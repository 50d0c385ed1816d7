import PadRelay.Toml.Lexical

/-!
This module contains the dates and times of TOML. No setting is one, so they are only checked.
-/

namespace PadRelay.Toml

/--
Reads a number of exactly `n` decimal digits that lies between two bounds.
-/
def readBetween (n low high : Nat) (cs : List Char) : Option (Nat × List Char) :=
  match readDigits 10 n cs with
  | none => none
  | some (digits, rest) =>
    let v := ofDigits 10 digits
    if low ≤ v ∧ v ≤ high then some (v, rest) else none

def readChar (c : Char) : List Char → Option (List Char)
  | d :: rest => if d = c then some rest else none
  | [] => none

def daysOfMonth (year month : Nat) : Nat :=
  if month = 2 then
    if year % 4 = 0 ∧ (year % 100 ≠ 0 ∨ year % 400 = 0) then 29 else 28
  else if month = 4 ∨ month = 6 ∨ month = 9 ∨ month = 11 then 30
  else 31

def readDate (cs : List Char) : Option (List Char) := do
  let (year, cs) ← readBetween 4 0 9999 cs
  let cs ← readChar '-' cs
  let (month, cs) ← readBetween 2 1 12 cs
  let cs ← readChar '-' cs
  let (_, cs) ← readBetween 2 1 (daysOfMonth year month) cs
  return cs

/--
Skips the fraction of a second. A point without digits is left there.
-/
def skipSecondFraction : List Char → List Char
  | '.' :: c :: rest =>
    if c.isDigit then rest.dropWhile Char.isDigit else '.' :: c :: rest
  | cs => cs

/--
Reads a time of day, which may be a leap second.
-/
def readTime (cs : List Char) : Option (List Char) := do
  let (_, cs) ← readBetween 2 0 23 cs
  let cs ← readChar ':' cs
  let (_, cs) ← readBetween 2 0 59 cs
  let cs ← readChar ':' cs
  let (_, cs) ← readBetween 2 0 60 cs
  return skipSecondFraction cs

def readOffset : List Char → Option (List Char)
  | c :: rest =>
    if c = 'Z' ∨ c = 'z' then
      some rest
    else if c = '+' ∨ c = '-' then do
      let (_, cs) ← readBetween 2 0 23 rest
      let cs ← readChar ':' cs
      let (_, cs) ← readBetween 2 0 59 cs
      return cs
    else
      none
  | [] => none

def readTimeOfDate : List Char → Option (List Char)
  | c :: rest =>
    if c = 'T' ∨ c = 't' ∨ c = ' ' then
      (readTime rest).map fun cs => (readOffset cs).getD cs
    else
      none
  | [] => none

def readMoment (cs : List Char) : Option (List Char) :=
  match readDate cs with
  | some rest => some ((readTimeOfDate rest).getD rest)
  | none => readTime cs

end PadRelay.Toml
