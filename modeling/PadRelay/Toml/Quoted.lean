import PadRelay.Toml.Lexical

/-!
This module contains the quoted text of TOML. There are two kinds of quotes, where only the double ones
allow for escapes, and both come in a form for several lines.
-/

namespace PadRelay.Toml

def isBasicChar (c : Char) : Bool :=
  isCommentChar c && c != '"' && c != '\\'

def isLiteralChar (c : Char) : Bool :=
  isCommentChar c && c != '\''

/--
The character with the given code point, which may not be a surrogate.
-/
def charOf? (n : Nat) : Option Char :=
  if h : n.isValidChar then some (Char.ofNatAux n h) else none

/--
The character whose code point is written with `n` hexadecimal digits.
-/
def readCodePoint (n : Nat) (cs : List Char) : Option (Char × List Char) :=
  match readDigits 16 n cs with
  | none => none
  | some (digits, rest) => (charOf? (ofDigits 16 digits)).map fun c => (c, rest)

/--
The character that an escape stands for. The backslash was read already.
-/
def readEscape : List Char → Option (Char × List Char)
  | 'b' :: rest => some ('\x08', rest)
  | 't' :: rest => some ('\t', rest)
  | 'n' :: rest => some ('\n', rest)
  | 'f' :: rest => some ('\x0c', rest)
  | 'r' :: rest => some ('\r', rest)
  | '"' :: rest => some ('"', rest)
  | '\\' :: rest => some ('\\', rest)
  | 'u' :: rest => readCodePoint 4 rest
  | 'U' :: rest => readCodePoint 8 rest
  | _ => none

theorem length_le_of_readCodePoint {n : Nat} {cs : List Char} {r : Char × List Char}
    (h : readCodePoint n cs = some r) : r.2.length ≤ cs.length := by
  simp only [readCodePoint] at h
  split at h
  . simp at h
  . rename_i hd
    obtain ⟨_, _, rfl⟩ := Option.map_eq_some_iff.1 h
    have := length_le_of_readDigits hd
    exact this

theorem length_lt_of_readEscape {cs : List Char} {r : Char × List Char}
    (h : readEscape cs = some r) : r.2.length < cs.length := by
  unfold readEscape at h
  split at h
  case h_8 => exact Nat.lt_succ_of_le (length_le_of_readCodePoint h)
  case h_9 => exact Nat.lt_succ_of_le (length_le_of_readCodePoint h)
  case h_10 => simp at h
  all_goals
    cases h
    simp

def readBasic (cs : List Char) : Option (List Char × List Char) :=
  match cs with
  | [] => none
  | '"' :: rest => some ([], rest)
  | '\\' :: rest =>
    match h : readEscape rest with
    | none => none
    | some (c, rest') =>
      have : rest'.length < rest.length := length_lt_of_readEscape h
      (readBasic rest').map fun r => (c :: r.1, r.2)
  | c :: rest => if isBasicChar c then (readBasic rest).map fun r => (c :: r.1, r.2) else none
termination_by cs.length

def readLiteral (cs : List Char) : Option (List Char × List Char) :=
  match cs.dropWhile isLiteralChar with
  | '\'' :: rest => some (cs.takeWhile isLiteralChar, rest)
  | _ => none

/--
Reads up to two quotes that stand right before the three quotes that end a text of several lines. The
first three quotes were read already.
-/
def readClosing (quote : Char) : List Char → List Char × List Char
  | a :: b :: rest =>
    if a = quote then
      if b = quote then ([quote, quote], rest) else ([quote], b :: rest)
    else
      ([], a :: b :: rest)
  | [a] => if a = quote then ([quote], []) else ([], [a])
  | [] => ([], [])

/--
Skips the rest of a line that ends with a backslash and all blanks and line ends after it. The
backslash was read already.
-/
def readContinuation (cs : List Char) : Option (List Char) :=
  match skipBlanks cs with
  | '\n' :: rest => some (skipBlankLines rest)
  | '\r' :: '\n' :: rest => some (skipBlankLines rest)
  | _ => none

theorem length_lt_of_readContinuation {cs r : List Char} (h : readContinuation cs = some r) :
    r.length < cs.length := by
  have hle := length_dropWhile_le isBlank cs
  simp only [readContinuation, skipBlanks] at h
  split at h
  . rename_i heq
    cases h
    rw [heq] at hle
    have := length_skipBlankLines_le ‹_›
    simp at hle
    omega
  . rename_i heq
    cases h
    rw [heq] at hle
    have := length_skipBlankLines_le ‹_›
    simp at hle
    omega
  . simp at h

def readBasicLines (cs : List Char) : Option (List Char × List Char) :=
  match cs with
  | [] => none
  | '"' :: '"' :: '"' :: rest => some (readClosing '"' rest)
  | '\\' :: rest =>
    match h : readContinuation rest with
    | some rest' =>
      have : rest'.length < rest.length := length_lt_of_readContinuation h
      readBasicLines rest'
    | none =>
      match h' : readEscape rest with
      | none => none
      | some (c, rest') =>
        have : rest'.length < rest.length := length_lt_of_readEscape h'
        (readBasicLines rest').map fun r => (c :: r.1, r.2)
  | '\r' :: '\n' :: rest => (readBasicLines rest).map fun r => ('\n' :: r.1, r.2)
  | c :: rest =>
    if c = '\n' || c = '"' || isBasicChar c then
      (readBasicLines rest).map fun r => (c :: r.1, r.2)
    else
      none
termination_by cs.length

def readLiteralLines : List Char → Option (List Char × List Char)
  | [] => none
  | '\'' :: '\'' :: '\'' :: rest => some (readClosing '\'' rest)
  | '\r' :: '\n' :: rest => (readLiteralLines rest).map fun r => ('\n' :: r.1, r.2)
  | c :: rest =>
    if c = '\n' || c = '\'' || isLiteralChar c then
      (readLiteralLines rest).map fun r => (c :: r.1, r.2)
    else
      none

def dropLineEnd : List Char → List Char
  | '\n' :: rest => rest
  | '\r' :: '\n' :: rest => rest
  | cs => cs

def readLine? : List Char → Option (List Char × List Char)
  | '"' :: rest => readBasic rest
  | '\'' :: rest => readLiteral rest
  | _ => none

def readText? : List Char → Option (List Char × List Char)
  | '"' :: '"' :: '"' :: rest => readBasicLines (dropLineEnd rest)
  | '\'' :: '\'' :: '\'' :: rest => readLiteralLines (dropLineEnd rest)
  | cs => readLine? cs

end PadRelay.Toml
