import PadRelay.Proofs.Toml.Number
import PadRelay.Toml.File

/-!
This module contains the theory of single lines of a TOML file: a line that opens a table or sets a key
to a text or a number is read as what was written, whatever lines follow it.
-/

namespace PadRelay.Toml

theorem isBlank_of_class {p : Char → Bool} {c : Char} (h : p c) (hspace : p ' ' = false)
    (htab : p '\t' = false) : isBlank c = false := by
  simp [isBlank, ne_of_class h hspace, ne_of_class h htab]

theorem readLine?_of_class {p : Char → Bool} {c : Char} (h : p c) (hdouble : p '"' = false)
    (hsingle : p '\'' = false) (cs : List Char) : readLine? (c :: cs) = none := by
  simp [readLine?, ne_of_class h hdouble, ne_of_class h hsingle]

theorem skipBlanks_cons {c : Char} (h : isBlank c = false) (cs : List Char)
    : skipBlanks (c :: cs) = c :: cs := by
  rw [skipBlanks, List.dropWhile_cons, h]
  rfl

section Values

/-- The characters are read as the value if they stand at the end of a line. -/
def IsWritten (d : Document) (cs : List Char) : Prop :=
  ∀ fuel rest, readValue (fuel + 1) 0 (skipBlanks (cs ++ '\n' :: rest)) = some (d, '\n' :: rest)

theorem isWritten_int {n : Nat} (h : n ≤ Int64.maxValue.toInt)
    : IsWritten (.int n) (Nat.toDigits 10 n) := by
  intro fuel rest
  have hmoment : readMoment (Nat.toDigits 10 n ++ '\n' :: rest) = none :=
    readMoment_digits (fun _ => isDigit_of_mem) rest
  have hfloat := readFloat_toDigits n rest
  have hread := readInteger_toDigits n rest
  have hfits : integer? (n : Int) = some (n : Int) := by
    rw [integer?, if_pos]
    rw [Int64.toInt_minValue]
    omega
  rw [hfits] at hread
  rcases toDigits_eq_cons n with ⟨c, cs, heq, _⟩
  have hc : c.isDigit := isDigit_of_mem (by rw [heq]; exact List.mem_cons_self)
  rw [heq, List.cons_append] at hmoment hfloat hread ⊢
  have hne : ∀ c', c'.isDigit = false → c ≠ c' := fun _ => ne_of_class hc
  have htext : readText? (c :: (cs ++ '\n' :: rest)) = none := by
    have hdouble := hne '"' (by decide)
    have hsingle := hne '\'' (by decide)
    have hline := readLine?_of_class hc (by decide) (by decide) (cs ++ '\n' :: rest)
    simp [readText?, hdouble, hsingle, hline]
  have hblank : isBlank c = false := isBlank_of_class hc (by decide) (by decide)
  rw [skipBlanks_cons hblank, readValue, htext, hmoment, hfloat, hread]
  . rfl
  . intro _ heq
    exact hne '[' (by decide) (List.cons.inj heq).1
  . intro _ heq
    exact hne '\x7b' (by decide) (List.cons.inj heq).1
  . intro _ heq
    exact hne 't' (by decide) (List.cons.inj heq).1
  . intro _ heq
    exact hne 'f' (by decide) (List.cons.inj heq).1

/-- Texts that are written in quotes without escapes. -/
def IsPlainText (text : String) : Prop :=
  ∀ c ∈ text.toList, isBasicChar c

instance (text : String) : Decidable (IsPlainText text) :=
  List.decidableBAll (isBasicChar ·) text.toList

theorem readBasic_append {cs : List Char} (h : ∀ c ∈ cs, isBasicChar c) (rest : List Char)
    : readBasic (cs ++ '"' :: rest) = some (cs, rest) := by
  induction cs with
  | nil => rw [List.nil_append, readBasic]
  | cons c cs ih =>
    have hc := h c List.mem_cons_self
    rw [List.cons_append, readBasic, if_pos hc, ih fun c' hc' => h c' (List.mem_cons_of_mem _ hc')]
    . rfl
    . exact ne_of_class hc (by decide)
    . exact ne_of_class hc (by decide)

theorem isWritten_text {text : String} (h : IsPlainText text)
    : IsWritten (.text text) ('"' :: (text.toList ++ ['"'])) := by
  intro fuel rest
  have hread := readBasic_append h ('\n' :: rest)
  have htext : readText? ('"' :: (text.toList ++ '"' :: '\n' :: rest))
      = some (text.toList, '\n' :: rest) := by
    rw [readText?]
    . exact hread
    . -- Three quotes in a row do not begin here: an empty text is followed by the line end.
      intro rest' heq
      have hquotes := (List.cons.inj heq).2
      cases htext : text.toList with
      | nil =>
        rw [htext] at hquotes
        simp at hquotes
      | cons c cs =>
        rw [htext] at hquotes
        have hc := h c (by simp [htext])
        rw [(List.cons.inj hquotes).1] at hc
        exact absurd hc (by decide)
    . simp
  have hcs : '"' :: (text.toList ++ ['"']) ++ '\n' :: rest
      = '"' :: (text.toList ++ '"' :: '\n' :: rest) := by simp
  rw [hcs, skipBlanks_cons (by decide), readValue, htext]
  . dsimp
    rw [String.ofList_toList]
  all_goals simp

end Values

section Statements

/-- Keys that are written without quotes. -/
def IsBareKey (key : String) : Prop :=
  key.toList ≠ [] ∧ ∀ c ∈ key.toList, isBareKeyChar c

instance (key : String) : Decidable (IsBareKey key) :=
  have := List.decidableBAll (isBareKeyChar ·) key.toList
  inferInstanceAs (Decidable (_ ∧ _))

variable {key : String}

theorem IsBareKey.toList_eq_cons (h : IsBareKey key)
    : ∃ c cs, key.toList = c :: cs ∧ isBareKeyChar c := by
  cases hkey : key.toList with
  | nil => exact absurd hkey h.1
  | cons c cs => exact ⟨c, cs, rfl, h.2 c (by simp [hkey])⟩

theorem isBlank_of_isBareKeyChar {c : Char} (h : isBareKeyChar c) : isBlank c = false :=
  isBlank_of_class h (by decide) (by decide)

theorem readKeyPart_append (h : IsBareKey key) {c : Char} (hc : isBareKeyChar c = false)
    (rest : List Char) : readKeyPart (key.toList ++ c :: rest) = some (key, c :: rest) := by
  have htake : (key.toList ++ c :: rest).takeWhile isBareKeyChar = key.toList := by
    rw [List.takeWhile_append_of_pos h.2, List.takeWhile_cons, hc]
    simp
  have hdrop : (key.toList ++ c :: rest).dropWhile isBareKeyChar = c :: rest := by
    rw [List.dropWhile_append_of_pos h.2, List.dropWhile_cons, hc]
    simp
  rcases h.toList_eq_cons with ⟨k, ks, hkey, hk⟩
  have hline : readLine? (key.toList ++ c :: rest) = none := by
    rw [hkey]
    exact readLine?_of_class hk (by decide) (by decide) _
  rw [readKeyPart, hline, htake, hdrop, ← String.ofList_toList (s := key), hkey]
  simp

theorem readKey_append (h : IsBareKey key) {c c' : Char} {rest rest' : List Char}
    (hc : isBareKeyChar c = false) (hrest : skipBlanks (c :: rest) = c' :: rest') (hdot : c' ≠ '.')
    : readKey (key.toList ++ c :: rest) = some (([], key), c' :: rest') := by
  have hpart := readKeyPart_append h hc rest
  have hskip : skipBlanks (key.toList ++ c :: rest) = key.toList ++ c :: rest := by
    rcases h.toList_eq_cons with ⟨k, ks, hkey, hk⟩
    rw [hkey, List.cons_append, skipBlanks_cons (isBlank_of_isBareKeyChar hk)]
  have hparts : readKeyParts nestingLimit (key.toList ++ c :: rest) = some ([key], c' :: rest') := by
    rw [nestingLimit, readKeyParts, hskip, hpart]
    dsimp
    rw [hrest]
    split
    . next heq => exact absurd (List.cons.inj heq).1 hdot
    . rfl
  rw [readKey, hparts]
  rfl

theorem readStatement_set (h : IsBareKey key) {d : Document} {cs : List Char} (hd : IsWritten d cs)
    (rest : List Char)
    : readStatement (key.toList ++ ' ' :: '=' :: ' ' :: (cs ++ '\n' :: rest))
        =
      some (.set [] key d, '\n' :: rest) := by
  have hkey := readKey_append h (by decide : isBareKeyChar ' ' = false)
    (rfl : skipBlanks (' ' :: '=' :: ' ' :: (cs ++ '\n' :: rest)) = _) (by decide)
  rcases h.toList_eq_cons with ⟨k, ks, hk, hbare⟩
  have hblank := isBlank_of_isBareKeyChar hbare
  have hother : ∀ c, isBareKeyChar c = false → ∀ cs cs', k :: cs = c :: cs' → False := by
    intro c hc cs cs' heq
    exact ne_of_class hbare hc (List.cons.inj heq).1
  rw [hk, List.cons_append] at hkey ⊢
  unfold readStatement
  rw [skipBlanks_cons hblank]
  split
  . next heq => simp at heq
  . next heq => exact (hother '#' (by decide) _ _ heq).elim
  . next heq => exact (hother '\n' (by decide) _ _ heq).elim
  . next heq => exact (hother '\r' (by decide) _ _ heq).elim
  . next heq => exact (hother '[' (by decide) _ _ heq).elim
  . next heq => exact (hother '[' (by decide) _ _ heq).elim
  . rw [hkey]
    have hskip : skipBlanks (' ' :: (cs ++ '\n' :: rest)) = skipBlanks (cs ++ '\n' :: rest) := rfl
    simp only [hskip, hd _ rest]
    rfl

theorem readStatement_element (h : IsBareKey key) (rest : List Char)
    : readStatement ('[' :: '[' :: (key.toList ++ ']' :: ']' :: '\n' :: rest))
        =
      some (.element [] key, '\n' :: rest) := by
  have hkey := readKey_append h (by decide : isBareKeyChar ']' = false)
    (rfl : skipBlanks (']' :: ']' :: '\n' :: rest) = _) (by decide)
  unfold readStatement
  rw [skipBlanks_cons (by decide)]
  simp [hkey]

end Statements

end PadRelay.Toml
