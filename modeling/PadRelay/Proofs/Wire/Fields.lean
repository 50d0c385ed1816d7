import PadRelay.Wire.RawField

/-!
This module contains the inverses of the writers of the wire: a reader that meets what was written,
with anything behind it, gives back what was written and leaves the rest.
-/

namespace PadRelay.Wire

namespace Varint

theorem encode_ne_nil (n : Nat)
    : encode n ≠ [] := by
  unfold encode
  split <;> simp

/--
The tenth byte has the weight `2 ^ 63`.
-/
theorem lt_two_of_mul_pow_lt {n : Nat} (h : n * Nat.pow 128 9 < UInt64.size)
    : n < 2 := by
  have hweight : Nat.pow 128 9 = 0x8000000000000000 := by decide
  have hsize : UInt64.size = 0x10000000000000000 := rfl
  rw [hweight, hsize] at h
  omega

/--
The position counts the bytes that were read before, so `128 ^ place` is the weight of the next one.
-/
theorem decodeFrom_encode (n place : Nat) (rest : List UInt8) (hplace : place ≤ 9)
    (hn : n * Nat.pow 128 place < UInt64.size)
    : decodeFrom place (encode n ++ rest) = some (n, rest) := by
  induction n using encode.induct generalizing place with
  | case1 n hlt =>
    have hbyte : (UInt8.ofNat n).toNat = n := by
      rw [UInt8.toNat_ofNat']
      omega
    have htenth : ¬(place = 9 ∧ 1 < n) := by
      rintro ⟨rfl, h⟩
      exact absurd (lt_two_of_mul_pow_lt hn) (by omega)
    rw [encode, if_pos hlt, List.singleton_append, decodeFrom, hbyte, if_neg htenth, if_pos hlt]
  | case2 n hge ih =>
    have hbyte : (UInt8.ofNat (n % 128 + 128)).toNat = n % 128 + 128 := by
      rw [UInt8.toNat_ofNat']
      omega
    have hlt : place < 9 := by
      rcases Nat.lt_or_eq_of_le hplace with hlt | rfl
      . exact hlt
      . exact absurd (lt_two_of_mul_pow_lt hn) (by omega)
    have hquot : n / 128 * Nat.pow 128 (place + 1) < UInt64.size := by
      calc n / 128 * Nat.pow 128 (place + 1)
        _ = n / 128 * 128 * Nat.pow 128 place := by
          rw [Nat.mul_assoc, Nat.mul_comm 128]
          rfl
        _ ≤ n * Nat.pow 128 place := Nat.mul_le_mul_right _ (Nat.div_mul_le_self n 128)
        _ < UInt64.size := hn
    rw [encode, if_neg hge, List.cons_append, decodeFrom, hbyte, if_neg (by omega), if_neg (by omega),
      ih (place + 1) (by omega) hquot]
    simp
    omega

theorem decode_encode (n : Nat) (rest : List UInt8) (hn : n < UInt64.size)
    : decode (encode n ++ rest) = some (n, rest) :=
  decodeFrom_encode n 0 rest (by omega) (by simpa using hn)

/--
Seven bits fit into each byte.
-/
theorem length_encode_le (n : Nat) {k : Nat} (hk : 0 < k) (hn : n < Nat.pow 128 k)
    : (encode n).length ≤ k := by
  induction n using encode.induct generalizing k with
  | case1 n hlt =>
    rw [encode, if_pos hlt]
    exact hk
  | case2 n hge ih =>
    match k with
    | 1 => exact absurd hn hge
    | k + 2 =>
      have hquot : n / 128 < Nat.pow 128 (k + 1) := by
        apply Nat.div_lt_of_lt_mul
        rw [Nat.mul_comm]
        exact hn
      have := ih (Nat.succ_pos k) hquot
      rw [encode, if_neg hge, List.length_cons]
      omega

theorem decodeAll_encode_append (n : Nat) (rest : List UInt8) (hn : n < UInt64.size)
    : decodeAll (encode n ++ rest) = (decodeAll rest).map (n :: ·) := by
  have hdecode := decode_encode n rest hn
  cases hbytes : encode n ++ rest with
  | nil => exact absurd (List.append_eq_nil_iff.1 hbytes).1 (encode_ne_nil n)
  | cons b bs =>
    rw [hbytes] at hdecode
    rw [decodeAll]
    split
    . next hnone =>
      rw [hdecode] at hnone
      simp at hnone
    . next hread =>
      rw [hdecode, Option.some.injEq, Prod.mk.injEq] at hread
      rw [hread.1, hread.2]

theorem decodeAll_flatMap_encode (ns : List Nat) (hns : ∀ n ∈ ns, n < UInt64.size)
    : decodeAll (ns.flatMap encode) = some ns := by
  induction ns with
  | nil => rw [List.flatMap_nil, decodeAll]
  | cons n ns ih =>
    rw [List.flatMap_cons, decodeAll_encode_append n _ (hns n List.mem_cons_self),
      ih fun n' hn' => hns n' (List.mem_cons_of_mem n hn')]
    rfl

end Varint

theorem WireType.ofNat?_toNat (shape : WireType)
    : WireType.ofNat? shape.toNat = some shape := by
  cases shape <;> rfl

theorem readKey_writeKey (number : Nat) (shape : WireType) (rest : List UInt8)
    (hpos : 0 < number) (hlt : number < 0x20000000)
    : readKey (writeKey number shape ++ rest) = some ((number, shape), rest) := by
  have hshape : shape.toNat < 8 := by cases shape <;> decide
  have hkey : 8 * number + shape.toNat < UInt32.size := by
    simp only [UInt32.size]
    omega
  have hsize : UInt32.size < UInt64.size := by decide
  unfold readKey writeKey
  rw [Varint.decode_encode _ _ (by omega)]
  dsimp only
  rw [if_pos ⟨hkey, by omega⟩, Nat.mul_add_mod, Nat.mod_eq_of_lt hshape, Nat.mul_add_div (by omega),
    Nat.div_eq_of_lt hshape, WireType.ofNat?_toNat]
  rfl

theorem readBytes_append (b rest : List UInt8) (hlen : b.length < UInt64.size)
    : readBytes (Varint.encode b.length ++ (b ++ rest)) = some (b, rest) := by
  unfold readBytes takeBytes
  rw [Varint.decode_encode _ _ hlen]
  simp

/--
The bytes of a field that some message type may have.
-/
def RawField.write (f : RawField) : List UInt8 :=
  match f.payload with
  | .varint n => writeKey f.number .varint ++ Varint.encode n
  | .bytes b => writeKey f.number .bytes ++ (Varint.encode b.length ++ b)
  | _ => []

/--
The payloads that messages are written with, as far as their numbers fit into 64 bits.
-/
def Payload.Writable : Payload → Prop
  | .varint n => n < UInt64.size
  | .bytes b => b.length < UInt64.size
  | _ => False

structure RawField.Writable (f : RawField) : Prop where
  pos : 0 < f.number
  lt : f.number < 0x20000000
  payload : f.payload.Writable

theorem readField_write (limit : Nat) (f : RawField) (rest : List UInt8) (hf : f.Writable)
    : readField limit (f.write ++ rest) = some (f, rest) := by
  rcases f with ⟨number, payload⟩
  have hpayload := hf.payload
  unfold readField
  cases payload with
  | varint n =>
    dsimp only [RawField.write]
    rw [List.append_assoc, readKey_writeKey number .varint _ hf.pos hf.lt]
    simp [readPayload, Varint.decode_encode n rest hpayload]
  | bytes b =>
    dsimp only [RawField.write]
    rw [List.append_assoc, readKey_writeKey number .bytes _ hf.pos hf.lt]
    simp [readPayload, readBytes_append b rest hpayload]
  | fixed64 | fixed32 | group => cases hpayload

theorem readFields_write_append (limit : Nat) (f : RawField) (rest : List UInt8) (hf : f.Writable)
    : readFields limit (f.write ++ rest) = (readFields limit rest).map (f :: ·) := by
  have hread := readField_write limit f rest hf
  cases hbytes : f.write ++ rest with
  | nil =>
    rw [hbytes] at hread
    simp [readField, readKey, Varint.decode, Varint.decodeFrom] at hread
  | cons b bs =>
    rw [hbytes] at hread
    rw [readFields]
    split
    . next hnone =>
      rw [hread] at hnone
      simp at hnone
    . next hread' =>
      rw [hread, Option.some.injEq, Prod.mk.injEq] at hread'
      rw [hread'.1, hread'.2]

theorem readFields_flatMap_write (limit : Nat) (fs : List RawField) (hfs : ∀ f ∈ fs, f.Writable)
    : readFields limit (fs.flatMap RawField.write) = some fs := by
  induction fs with
  | nil => rw [List.flatMap_nil, readFields]
  | cons f fs ih =>
    rw [List.flatMap_cons, readFields_write_append limit f _ (hfs f List.mem_cons_self),
      ih fun f' hf' => hfs f' (List.mem_cons_of_mem f hf')]
    rfl

end PadRelay.Wire
