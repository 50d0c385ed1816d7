/-!
This module contains the characters of TOML and what separates its parts: blanks, line ends and
comments.
-/

namespace PadRelay.Toml

def isBlank (c : Char) : Bool :=
  c = ' ' || c = '\t'

def isCommentChar (c : Char) : Bool :=
  c = '\t' || (' ' ≤ c && c ≤ '~') || 0x80 ≤ c.toNat

def isBareKeyChar (c : Char) : Bool :=
  c.isAlphanum || c = '_' || c = '-'

def skipBlanks (cs : List Char) : List Char :=
  cs.dropWhile isBlank

def skipBlankLines : List Char → List Char
  | '\r' :: '\n' :: rest => skipBlankLines rest
  | c :: rest => if isBlank c || c = '\n' then skipBlankLines rest else c :: rest
  | [] => []

/--
Skips blanks, line ends and comments that reach to the end of their line. A comment that is
interrupted is left there, so that nothing which may follow is found.
-/
def skipSpace (inComment : Bool) : List Char → List Char
  | '\r' :: '\n' :: rest => skipSpace false rest
  | c :: rest =>
    if c = '\n' then skipSpace false rest
    else if inComment then
      if isCommentChar c then skipSpace true rest else c :: rest
    else if isBlank c then skipSpace false rest
    else if c = '#' then skipSpace true rest
    else c :: rest
  | [] => []

def endLine (cs : List Char) : Option (List Char) :=
  match afterComment (skipBlanks cs) with
  | [] => some []
  | '\n' :: rest => some rest
  | '\r' :: '\n' :: rest => some rest
  | _ => none
where
  afterComment : List Char → List Char
  | '#' :: rest => rest.dropWhile isCommentChar
  | cs => cs

def ofDigits (base : Nat) (digits : List Nat) : Nat :=
  digits.foldl (fun n d => n * base + d) 0

def digit? (base : Nat) (c : Char) : Option Nat :=
  let value :=
    if '0' ≤ c ∧ c ≤ '9' then c.toNat - '0'.toNat
    else if 'a' ≤ c ∧ c ≤ 'f' then c.toNat - 'a'.toNat + 10
    else if 'A' ≤ c ∧ c ≤ 'F' then c.toNat - 'A'.toNat + 10
    else base
  if value < base then some value else none

/--
Reads exactly `n` digits.
-/
def readDigits (base : Nat) : (n : Nat) → List Char → Option (List Nat × List Char)
  | 0, cs => some ([], cs)
  | _ + 1, [] => none
  | n + 1, c :: rest =>
    match digit? base c with
    | none => none
    | some d => (readDigits base n rest).map fun r => (d :: r.1, r.2)

theorem length_le_of_readDigits {base n : Nat} {cs : List Char} {r : List Nat × List Char}
    (h : readDigits base n cs = some r) : r.2.length ≤ cs.length := by
  induction n generalizing cs r with
  | zero =>
    cases h
    simp
  | succ n ih =>
    cases cs with
    | nil => simp [readDigits] at h
    | cons c rest =>
      simp only [readDigits] at h
      split at h
      . simp at h
      . obtain ⟨r', h', rfl⟩ := Option.map_eq_some_iff.1 h
        have := ih h'
        simp
        omega

theorem length_dropWhile_le {α : Type} (p : α → Bool) (l : List α) :
    (l.dropWhile p).length ≤ l.length :=
  (List.dropWhile_sublist p).length_le

theorem length_skipBlankLines_le (cs : List Char) :
    (skipBlankLines cs).length ≤ cs.length := by
  fun_induction skipBlankLines cs <;> simp_all <;> omega

end PadRelay.Toml
