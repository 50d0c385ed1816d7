import PadRelay.Toml.Value

/-!
This module contains the theory of decimal numbers in TOML: a number that is written with its decimal
digits is read as an integer and as nothing else, and it is refused if it does not fit 64 bits.
-/

namespace PadRelay.Toml

/-- Characters that some class of characters tells apart. -/
theorem ne_of_class {p : Char → Bool} {c c' : Char} (h : p c) (h' : p c' = false) : c ≠ c' := by
  rintro rfl
  rw [h] at h'
  simp at h'

theorem digit?_of_isDigit {c : Char} (h : c.isDigit) : digit? 10 c = some (c.toNat - '0'.toNat) := by
  have hbounds : '0' ≤ c ∧ c ≤ '9' := by
    rw [Char.isDigit, Bool.and_eq_true, decide_eq_true_eq, decide_eq_true_eq] at h
    exact h
  have hlow : 48 ≤ c.toNat := hbounds.1
  have hhigh : c.toNat ≤ 57 := hbounds.2
  unfold digit?
  simp only [if_pos hbounds]
  rw [if_pos]
  simp only [Char.reduceToNat]
  omega

theorem moreDigits_append {cs : List Char} (h : ∀ c ∈ cs, c.isDigit) (rest : List Char)
    : moreDigits 10 (cs ++ '\n' :: rest)
        =
      (cs.map fun c => c.toNat - '0'.toNat, '\n' :: rest) := by
  induction cs with
  | nil => rfl
  | cons c cs ih =>
    have hc := h c List.mem_cons_self
    rw [List.cons_append, moreDigits.eq_def]
    split
    . next heq => simp at heq
    . next heq => exact absurd (List.cons.inj heq).1 (ne_of_class hc (by decide))
    . next heq =>
      cases heq
      rw [digit?_of_isDigit hc, ih fun c' hc' => h c' (List.mem_cons_of_mem _ hc')]
      rfl

/-- Digits have the same value for this reader as for the writer of numbers. -/
theorem ofDigits_map (cs : List Char)
    : ofDigits 10 (cs.map fun c => c.toNat - '0'.toNat) = Nat.ofDigitChars 10 cs 0 := by
  rw [ofDigits, List.foldl_map, Nat.ofDigitChars_eq_foldl]
  congr
  funext n c
  rw [Nat.mul_comm]

theorem isDigit_of_mem {n : Nat} {c : Char} (h : c ∈ Nat.toDigits 10 n) : c.isDigit :=
  Nat.isDigit_of_mem_toDigits (by decide) (by decide) h

/-- No number but zero is written with a leading zero. -/
theorem toDigits_eq_cons (n : Nat)
    : ∃ c cs, Nat.toDigits 10 n = c :: cs ∧ (c = '0' → n = 0) := by
  induction n using Nat.strongRecOn with
  | ind n ih =>
    rw [Nat.toDigits_eq_if (by decide)]
    split
    . next hsmall =>
      refine ⟨n.digitChar, [], rfl, ?_⟩
      intro hzero
      have h : ∀ n < 10, n.digitChar = '0' → n = 0 := by decide
      exact h n hsmall hzero
    . next hlarge =>
      rcases ih (n / 10) (by omega) with ⟨c, cs, heq, hzero⟩
      refine ⟨c, cs ++ [(n % 10).digitChar], ?_, ?_⟩
      . rw [heq, List.cons_append]
      . intro hc
        have := hzero hc
        omega

theorem readSign_of_isDigit {c : Char} (h : c.isDigit) (cs : List Char)
    : readSign (c :: cs) = (false, c :: cs) := by
  unfold readSign
  split
  . next heq => exact absurd (List.cons.inj heq).1 (ne_of_class h (by decide))
  . next heq => exact absurd (List.cons.inj heq).1 (ne_of_class h (by decide))
  . rfl

/-- The whole number is read, which is a single digit if it starts with a zero. -/
theorem readDecimal_toDigits (n : Nat) (rest : List Char)
    : ∃ digits, readDecimal (Nat.toDigits 10 n ++ '\n' :: rest) = some (digits, '\n' :: rest) ∧
        ofDigits 10 digits = n := by
  rcases toDigits_eq_cons n with ⟨c, cs, heq, hzero⟩
  have hdigits : ∀ c' ∈ c :: cs, c'.isDigit := by
    rw [← heq]
    exact fun c' => isDigit_of_mem
  have hvalue : ofDigits 10 ((c :: cs).map fun c => c.toNat - '0'.toNat) = n := by
    rw [ofDigits_map, ← heq, Nat.ofDigitChars_toDigits (by decide) (by decide)]
  by_cases hc : c = '0'
  . have hn := hzero hc
    subst hn
    exact ⟨[0], rfl, rfl⟩
  . refine ⟨_, ?_, hvalue⟩
    rw [heq, List.cons_append]
    unfold readDecimal
    split
    . next h => exact absurd (List.cons.inj h).1 hc
    . rw [someDigits, digit?_of_isDigit (hdigits c List.mem_cons_self),
        moreDigits_append fun c' hc' => hdigits c' (List.mem_cons_of_mem _ hc')]
      rfl

section Refused

variable {cs : List Char} {rest : List Char}

/-- Reading some of the digits leaves the others. -/
theorem drop_of_readDigits {n : Nat} {r : List Nat × List Char}
    (h : readDigits 10 n (cs ++ '\n' :: rest) = some r)
    : ∃ k, r.2 = cs.drop k ++ '\n' :: rest := by
  induction n generalizing cs r with
  | zero =>
    cases h
    exact ⟨0, rfl⟩
  | succ n ih =>
    cases cs with
    | nil => exact absurd h (by simp [readDigits, digit?])
    | cons c cs =>
      rw [List.cons_append, readDigits] at h
      split at h
      . simp at h
      . rcases Option.map_eq_some_iff.1 h with ⟨r', hr', rfl⟩
        rcases ih hr' with ⟨k, hk⟩
        exact ⟨k + 1, hk⟩

theorem drop_of_readBetween {n low high : Nat} {r : Nat × List Char}
    (h : readBetween n low high (cs ++ '\n' :: rest) = some r)
    : ∃ k, r.2 = cs.drop k ++ '\n' :: rest := by
  unfold readBetween at h
  split at h
  . simp at h
  . next hread =>
    dsimp at h
    split at h
    . cases h
      exact drop_of_readDigits hread
    . simp at h

theorem readChar_drop {c : Char} (hcs : ∀ c' ∈ cs, c'.isDigit) (hc : c.isDigit = false)
    (hline : c ≠ '\n') (k : Nat) (rest : List Char)
    : readChar c (cs.drop k ++ '\n' :: rest) = none := by
  cases hk : cs.drop k with
  | nil => simp [readChar, hline.symm]
  | cons c' cs' =>
    have hmem : c' ∈ cs.drop k := by simp [hk]
    have hne : c' ≠ c := ne_of_class (hcs c' (List.mem_of_mem_drop hmem)) hc
    simp [readChar, hne]

theorem readChar_of_readBetween {c : Char} (hcs : ∀ c' ∈ cs, c'.isDigit) (hc : c.isDigit = false)
    (hline : c ≠ '\n') {n low high : Nat} {r : Nat × List Char}
    (h : readBetween n low high (cs ++ '\n' :: rest) = some r) : readChar c r.2 = none := by
  rcases drop_of_readBetween h with ⟨k, hk⟩
  rw [hk]
  exact readChar_drop hcs hc hline k rest

theorem readMoment_digits (hcs : ∀ c ∈ cs, c.isDigit) (rest : List Char)
    : readMoment (cs ++ '\n' :: rest) = none := by
  have hdate : readDate (cs ++ '\n' :: rest) = none := by
    unfold readDate
    cases hyear : readBetween 4 0 9999 (cs ++ '\n' :: rest) with
    | none => rfl
    | some r =>
      have := readChar_of_readBetween hcs (by decide : '-'.isDigit = false) (by decide) hyear
      simp [this]
  have htime : readTime (cs ++ '\n' :: rest) = none := by
    unfold readTime
    cases hhour : readBetween 2 0 23 (cs ++ '\n' :: rest) with
    | none => rfl
    | some r =>
      have := readChar_of_readBetween hcs (by decide : ':'.isDigit = false) (by decide) hhour
      simp [this]
  rw [readMoment, hdate]
  exact htime

end Refused

theorem readFloat_toDigits (n : Nat) (rest : List Char)
    : readFloat (Nat.toDigits 10 n ++ '\n' :: rest) = none := by
  rcases readDecimal_toDigits n rest with ⟨digits, hread, _⟩
  rcases toDigits_eq_cons n with ⟨c, cs, heq, _⟩
  have hc : c.isDigit := isDigit_of_mem (by rw [heq]; exact List.mem_cons_self)
  rw [heq, List.cons_append] at hread ⊢
  unfold readFloat
  rw [readSign_of_isDigit hc]
  dsimp
  split
  . next h => exact absurd (List.cons.inj h).1 (ne_of_class hc (by decide))
  . next h => exact absurd (List.cons.inj h).1 (ne_of_class hc (by decide))
  . rw [hread]
    rfl

/-- What starts with a zero is not taken for a number in another base. -/
theorem readInteger_toDigits (n : Nat) (rest : List Char)
    : readInteger (Nat.toDigits 10 n ++ '\n' :: rest)
        =
      (integer? n).map fun i => (i, '\n' :: rest) := by
  rcases readDecimal_toDigits n rest with ⟨digits, hread, hvalue⟩
  rcases toDigits_eq_cons n with ⟨c, cs, heq, hzero⟩
  have hc : c.isDigit := isDigit_of_mem (by rw [heq]; exact List.mem_cons_self)
  have hcs : c = '0' → cs = [] := by
    intro h
    rw [hzero h] at heq
    exact (List.cons.inj heq).2.symm
  rw [heq, List.cons_append] at hread ⊢
  unfold readInteger
  split
  . next h =>
    rcases List.cons.inj h with ⟨rfl, h⟩
    simp [hcs rfl] at h
  . next h =>
    rcases List.cons.inj h with ⟨rfl, h⟩
    simp [hcs rfl] at h
  . next h =>
    rcases List.cons.inj h with ⟨rfl, h⟩
    simp [hcs rfl] at h
  . rw [readSign_of_isDigit hc]
    dsimp
    rw [hread]
    simp [hvalue]

end PadRelay.Toml
