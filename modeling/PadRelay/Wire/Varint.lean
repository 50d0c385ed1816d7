/-!
This module contains varints: numbers below `2 ^ 64` as bytes of seven bits each, lowest first, where
every byte but the last one has its high bit set.
-/

namespace PadRelay.Wire.Varint

/--
The shortest sequence of bytes for `n`.
-/
def encode (n : Nat) : List UInt8 :=
  if n < 128 then [UInt8.ofNat n] else UInt8.ofNat (n % 128 + 128) :: encode (n / 128)
termination_by n
decreasing_by omega

/--
Reads the bytes of a number from the one at position `place` on. A tenth byte only has room for the
highest bit of the number, so it may not exceed one.
-/
def decodeFrom (place : Nat) : List UInt8 → Option (Nat × List UInt8)
  | [] => none
  | b :: rest =>
    if place = 9 ∧ 1 < b.toNat then none
    else if b.toNat < 128 then some (b.toNat, rest)
    else (decodeFrom (place + 1) rest).map fun r => (b.toNat - 128 + 128 * r.1, r.2)

/--
The number at the start of `bytes` and the bytes after it. There is none if the bytes end inside of
the number or if the number does not fit into 64 bits.
-/
def decode (bytes : List UInt8) : Option (Nat × List UInt8) :=
  decodeFrom 0 bytes

theorem length_lt_of_decodeFrom {place : Nat} {bytes : List UInt8} {r : Nat × List UInt8}
    (h : decodeFrom place bytes = some r) : r.2.length < bytes.length := by
  induction bytes generalizing place r with
  | nil => simp [decodeFrom] at h
  | cons b rest ih =>
    simp only [decodeFrom] at h
    split at h
    . simp at h
    . split at h
      . cases h
        simp
      . obtain ⟨r', h', rfl⟩ := Option.map_eq_some_iff.1 h
        have := ih h'
        simp
        omega

theorem length_lt_of_decode {bytes : List UInt8} {r : Nat × List UInt8}
    (h : decode bytes = some r) : r.2.length < bytes.length :=
  length_lt_of_decodeFrom h

/--
All numbers in `bytes`, if the bytes consist of nothing but numbers.
-/
def decodeAll (bytes : List UInt8) : Option (List Nat) :=
  match bytes with
  | [] => some []
  | b :: bs =>
    match h : decode (b :: bs) with
    | none => none
    | some (n, rest) =>
      have : rest.length < (b :: bs).length := length_lt_of_decode h
      (decodeAll rest).map (n :: ·)
termination_by bytes.length
decreasing_by assumption

end PadRelay.Wire.Varint
