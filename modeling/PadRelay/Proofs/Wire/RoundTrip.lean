import PadRelay.Proofs.Wire.Fields
import PadRelay.Wire.Codec

/-!
This module contains the proof that the coding of messages loses nothing: what is read from the bytes
of a message is the message itself, of whatever type it is and whatever it holds.
-/

namespace PadRelay

/--
How deep messages are nested in the messages of a type.
-/
def MessageType.nesting : MessageType → Nat
  | plugResponse => 1
  | startGame => 1
  | outgoingEvent => 1
  | incomingEvent => 2
  | _ => 0

/--
How deep messages are nested in the values of a field.
-/
def FieldKind.nesting : FieldKind → Nat
  | .message t => t.nesting + 1
  | .messages t => t.nesting + 1
  | _ => 0

namespace MessageType

theorem nesting_le (t : MessageType)
    : t.nesting ≤ 2 := by
  cases t <;> decide

theorem nesting_kind_le {t : MessageType} {f : Field t} (hf : f ∈ t.fields)
    : f.kind.nesting ≤ t.nesting := by
  have h : ∀ kind ∈ t.fields.map (·.kind), kind.nesting ≤ t.nesting := by
    cases t <;> decide
  exact h f.kind (List.mem_map_of_mem hf)

theorem number_bounds {t : MessageType} {f : Field t} (hf : f ∈ t.fields)
    : 0 < f.number ∧ f.number < 0x20000000 := by
  have h : ∀ number ∈ t.fields.map (·.number), 0 < number ∧ number < 0x20000000 := by
    cases t <;> decide
  exact h f.number (List.mem_map_of_mem hf)

end MessageType

namespace Wire

theorem ofInt32_lt (v : Int32)
    : ofInt32 v < UInt64.size :=
  UInt64.toNat_lt_size _

theorem ofInt64_lt (v : Int64)
    : ofInt64 v < UInt64.size :=
  UInt64.toNat_lt_size _

/--
The sign is extended to 64 bits and cut off again.
-/
theorem ofNat_ofInt32 (v : Int32)
    : Int32.ofNat (ofInt32 v) = v := by
  apply Int32.toBitVec_inj.1
  rw [Int32.toBitVec_ofNat']
  change BitVec.ofNat 32 v.toInt64.toBitVec.toNat = v.toBitVec
  rw [Int32.toBitVec_toInt64, BitVec.ofNat_toNat]
  ext i hi
  have hwide : decide (i < 64) = true := decide_eq_true (by omega)
  rw [BitVec.getElem_setWidth, BitVec.getLsbD_signExtend, if_pos hi, hwide, Bool.true_and,
    BitVec.getLsbD_eq_getElem hi]

theorem ofNat_ofInt64 (v : Int64)
    : Int64.ofNat (ofInt64 v) = v := by
  apply Int64.toBitVec_inj.1
  rw [Int64.toBitVec_ofNat']
  apply BitVec.eq_of_toNat_eq
  simp [ofInt64]

theorem toList_loop (b : ByteArray) (i : Nat) (read : List UInt8)
    : ByteArray.toList.loop b i read = read.reverse ++ b.data.toList.drop i := by
  fun_induction ByteArray.toList.loop b i read with
  | case1 i read h ih =>
    have hi : i < b.data.toList.length := h
    have hget : b.get! i = b.data.toList[i] := getElem!_pos b.data i h
    rw [ih, List.drop_eq_getElem_cons hi, List.reverse_cons, List.append_assoc, hget]
    rfl
  | case2 i read h =>
    rw [List.drop_eq_nil_of_le (Nat.le_of_not_lt h), List.append_nil]

theorem readText_toUTF8 (s : String)
    : readText s.toUTF8.toList = some s := by
  have hlist : s.toUTF8.toList = s.toUTF8.data.toList := by
    rw [ByteArray.toList, toList_loop]
    rfl
  unfold readText String.fromUTF8?
  rw [hlist, Array.toArray_toList]
  exact dif_pos s.isValidUTF8

/--
The payload of a field with a number.
-/
def numberPayloads (n : Nat) : List Payload :=
  if n = 0 then [] else [.varint n]

/--
The payloads that a field is written as, where `sub` writes the messages that the field may hold.
-/
def payloads (sub : (t : MessageType) → t.Carrier → List UInt8) :
    (kind : FieldKind) → kind.Carrier → List Payload
  | .flag, v => numberPayloads (Bool.toNat v)
  | .int32, v => numberPayloads (ofInt32 v)
  | .int64, v => numberPayloads (ofInt64 v)
  | .text, v => if v = "" then [] else [.bytes v.toUTF8.toList]
  | .enumeration _, v => numberPayloads (ofInt32 v)
  | .enumerations _, vs =>
    if vs = [] then [] else [.bytes (vs.flatMap fun v => Varint.encode (ofInt32 v))]
  | .message t, v =>
    match v with
    | none => []
    | some m => [.bytes (sub t m)]
  | .messages t, ms => ms.map fun m => .bytes (sub t m)

/--
The fields that a payload each makes with the same number.
-/
def numbered (number : Nat) (ps : List Payload) : List RawField :=
  ps.map (RawField.mk number)

theorem writeNumber_eq (number n : Nat)
    : writeNumber number n = (numbered number (numberPayloads n)).flatMap RawField.write := by
  unfold writeNumber numberPayloads
  split
  . rfl
  . simp [numbered, RawField.write]

theorem writeValue_eq (sub : (t : MessageType) → t.Carrier → List UInt8) (number : Nat)
    (kind : FieldKind) (v : kind.Carrier)
    : writeValue sub number kind v
      =
    (numbered number (payloads sub kind v)).flatMap RawField.write := by
  cases kind with
  | flag | int32 | int64 | enumeration =>
    exact writeNumber_eq number _
  | text =>
    dsimp only [writeValue, payloads]
    split
    . rfl
    . simp [numbered, RawField.write, writeBytes]
  | enumerations =>
    dsimp only [writeValue, payloads]
    split
    . rfl
    . simp [numbered, RawField.write, writeBytes]
  | message =>
    cases v with
    | none => rfl
    | some m => simp [writeValue, payloads, numbered, RawField.write, writeBytes]
  | messages =>
    dsimp only [writeValue, payloads, numbered]
    rw [List.map_map, List.flatMap_map]
    rfl

theorem numberPayloads_writable {n : Nat} (hn : n < UInt64.size) {p : Payload}
    (hp : p ∈ numberPayloads n)
    : p.Writable := by
  unfold numberPayloads at hp
  split at hp
  . cases hp
  . cases List.mem_singleton.1 hp
    exact hn

theorem payloads_writable {sub : (t : MessageType) → t.Carrier → List UInt8} {kind : FieldKind}
    {v : kind.Carrier}
    (hlen : ∀ b, Payload.bytes b ∈ payloads sub kind v → b.length < UInt64.size) {p : Payload}
    (hp : p ∈ payloads sub kind v)
    : p.Writable := by
  cases p with
  | bytes b => exact hlen b hp
  | varint | fixed64 | fixed32 | group =>
    cases kind with
    | flag => exact numberPayloads_writable (by cases v <;> decide) hp
    | int32 | enumeration => exact numberPayloads_writable (ofInt32_lt v) hp
    | int64 => exact numberPayloads_writable (ofInt64_lt v) hp
    | text | enumerations =>
      dsimp only [payloads] at hp
      split at hp <;> simp at hp
    | message => cases v <;> simp [payloads] at hp
    | messages => simp [payloads] at hp

/--
An absent number reads as zero, which is the only number that is left out.
-/
theorem numbers_numberPayloads (n : Nat)
    : (numbers (numberPayloads n)).map (·.getLastD 0) = some n := by
  unfold numberPayloads
  split <;> simp_all [numbers]

theorem map_numbers_numberPayloads {α : Type} (n : Nat) (f : Nat → α)
    : ((numbers (numberPayloads n)).map fun ns => f (ns.getLastD 0)) = some (f n) := by
  have h := congrArg (Option.map f) (numbers_numberPayloads n)
  rwa [Option.map_map] at h

theorem mapM_singleton {α β : Type} {f : α → Option β} {a : α} {b : β} (h : f a = some b)
    : [a].mapM f = some [b] := by
  rw [List.mapM_cons, h]
  rfl

theorem mapM_map_of_forall {α β : Type} {g : α → β} {f : β → Option α} {as : List α}
    (h : ∀ a ∈ as, f (g a) = some a)
    : (as.map g).mapM f = some as := by
  induction as with
  | nil => rfl
  | cons a as ih =>
    rw [List.map_cons, List.mapM_cons, h a List.mem_cons_self,
      ih fun a' ha' => h a' (List.mem_cons_of_mem a ha')]
    rfl

theorem chunks_map_bytes {α : Type} (f : α → List UInt8) (as : List α)
    : chunks (as.map fun a => .bytes (f a)) = some (as.map f) := by
  unfold chunks
  rw [List.mapM_map]
  exact List.mapM_pure

theorem listNumbers_flatMap_encode (vs : List Int32)
    : listNumbers (.bytes (vs.flatMap fun v => Varint.encode (ofInt32 v)))
      =
    some (vs.map ofInt32) := by
  rw [listNumbers, ← List.flatMap_map, Varint.decodeAll_flatMap_encode]
  intro n hn
  rcases List.mem_map.1 hn with ⟨v, -, rfl⟩
  exact ofInt32_lt v

/--
A value is read from its payloads if the messages that it holds are.
-/
theorem readValue_payloads {write : (t : MessageType) → t.Carrier → List UInt8}
    {read : (t : MessageType) → List (List UInt8) → Option t.Carrier} {kind : FieldKind}
    {v : kind.Carrier}
    (hsub :
      ∀ t m,
        t.nesting < kind.nesting
          →
        Payload.bytes (write t m) ∈ payloads write kind v
          →
        read t [write t m] = some m)
    : readValue read (payloads write kind v) kind = some v := by
  cases kind with
  | flag =>
    rw [readValue, payloads, map_numbers_numberPayloads (Bool.toNat v) (· != 0)]
    cases v <;> rfl
  | int32 | enumeration =>
    rw [readValue, payloads, map_numbers_numberPayloads, ofNat_ofInt32]
  | int64 => rw [readValue, payloads, map_numbers_numberPayloads, ofNat_ofInt64]
  | text =>
    dsimp only [readValue, payloads]
    split
    . rename_i hv
      rw [hv]
      rfl
    . change Option.map _ ([v.toUTF8.toList].mapM readText) = some v
      rw [mapM_singleton (readText_toUTF8 v)]
      rfl
  | enumerations =>
    dsimp only [readValue, payloads]
    split
    . rename_i hv
      rw [hv]
      rfl
    . rw [mapM_singleton (listNumbers_flatMap_encode v)]
      simp [Function.comp_def, ofNat_ofInt32]
  | message t =>
    cases v with
    | none => rfl
    | some m =>
      have hm := hsub t m (Nat.lt_succ_self _) List.mem_cons_self
      change (read t [write t m]).map some = some (some m)
      rw [hm]
      rfl
  | messages t =>
    dsimp only [readValue, payloads]
    rw [chunks_map_bytes, Option.bind_some]
    apply mapM_map_of_forall
    intro m hm
    exact hsub t m (Nat.lt_succ_self _) (List.mem_map_of_mem hm)

/--
The fields that a message is written as.
-/
def rawFields (sub : (t : MessageType) → t.Carrier → List UInt8) (t : MessageType) (m : t.Carrier) :
    List RawField :=
  t.fields.flatMap fun f => numbered f.number (payloads sub f.kind (f.get m))

theorem writeMessage_succ (depth : Nat) (t : MessageType) (m : t.Carrier)
    : writeMessage (depth + 1) t m
      =
    (rawFields (writeMessage depth) t m).flatMap RawField.write := by
  rw [writeMessage, rawFields, List.flatMap_assoc]
  congr 1
  funext f
  exact writeValue_eq _ f.number f.kind (f.get m)

theorem filter_numbered_self (number : Nat) (ps : List Payload)
    : (numbered number ps).filter (·.number == number) = numbered number ps := by
  rw [List.filter_eq_self]
  simp [numbered]

theorem filter_numbered_of_ne {number number' : Nat} (h : number ≠ number') (ps : List Payload)
    : (numbered number ps).filter (·.number == number') = [] := by
  rw [List.filter_eq_nil_iff]
  simp [numbered, h]

theorem map_payload_numbered (number : Nat) (ps : List Payload)
    : (numbered number ps).map (·.payload) = ps := by
  simp [numbered, Function.comp_def]

/--
No two fields of a message type have the same number, so the payloads of a field are found again.
-/
theorem filter_flatMap_numbered {t : MessageType} {fs : List (Field t)}
    (hfs : (fs.map (·.number)).Pairwise (· < ·)) (g : Field t → List Payload) {f : Field t}
    (hf : f ∈ fs)
    : ((fs.flatMap fun f' => numbered f'.number (g f')).filter (·.number == f.number))
      =
    numbered f.number (g f) := by
  induction fs with
  | nil => cases hf
  | cons hd tl ih =>
    rcases List.pairwise_cons.1 hfs with ⟨hhd, htl⟩
    rw [List.flatMap_cons, List.filter_append]
    rcases List.mem_cons.1 hf with rfl | hf
    . have hrest :
          (tl.flatMap fun f' => numbered f'.number (g f')).filter (·.number == f.number) = [] := by
        rw [List.filter_flatMap, List.flatMap_eq_nil_iff]
        intro f' hf'
        have hgt := hhd f'.number (List.mem_map_of_mem hf')
        exact filter_numbered_of_ne (Nat.ne_of_gt hgt) (g f')
      rw [filter_numbered_self, hrest, List.append_nil]
    . have hlt := hhd f.number (List.mem_map_of_mem hf)
      rw [filter_numbered_of_ne (Nat.ne_of_lt hlt), ih htl hf]
      rfl

theorem foldlM_eq_some_foldl {α β : Type} {f : β → α → Option β} {g : β → α → β} {as : List α}
    (h : ∀ a ∈ as, ∀ b, f b a = some (g b a)) (b : β)
    : as.foldlM f b = some (as.foldl g b) := by
  induction as generalizing b with
  | nil => rfl
  | cons a as ih =>
    rw [List.foldlM_cons, h a List.mem_cons_self]
    exact ih (fun a' ha' => h a' (List.mem_cons_of_mem a ha')) (g b a)

theorem length_le_of_mem_flatMap {α β : Type} {f : α → List β} {as : List α} {a : α} (ha : a ∈ as)
    : (f a).length ≤ (as.flatMap f).length := by
  rw [List.flatMap_def]
  exact (List.sublist_flatten_of_mem (List.mem_map_of_mem ha)).length_le

theorem length_flatMap_le {α β : Type} {f : α → List β} {as : List α} {n : Nat}
    (h : ∀ a ∈ as, (f a).length ≤ n)
    : (as.flatMap f).length ≤ as.length * n := by
  induction as with
  | nil => exact Nat.zero_le _
  | cons a as ih =>
    have hhead := h a List.mem_cons_self
    have htail := ih fun a' ha' => h a' (List.mem_cons_of_mem a ha')
    rw [List.flatMap_cons, List.length_append, List.length_cons, Nat.succ_mul]
    omega

theorem mem_rawFields {sub : (t : MessageType) → t.Carrier → List UInt8} {t : MessageType}
    {m : t.Carrier} {r : RawField}
    : r ∈ rawFields sub t m
      ↔
    ∃ f ∈ t.fields, r.number = f.number ∧ r.payload ∈ payloads sub f.kind (f.get m) := by
  unfold rawFields numbered
  rw [List.mem_flatMap]
  constructor
  . rintro ⟨f, hf, hr⟩
    rcases List.mem_map.1 hr with ⟨p, hp, rfl⟩
    exact ⟨f, hf, rfl, hp⟩
  . rintro ⟨f, hf, hnumber, hp⟩
    exact ⟨f, hf, List.mem_map.2 ⟨r.payload, hp, by rw [← hnumber]⟩⟩

/--
A length that is written with a message is never larger than the message.
-/
theorem length_le_of_bytes_mem {depth : Nat} {t : MessageType} {m : t.Carrier} {r : RawField}
    {b : List UInt8} (hr : r ∈ rawFields (writeMessage depth) t m) (hb : r.payload = .bytes b)
    : b.length ≤ (writeMessage (depth + 1) t m).length := by
  have hwrite : b.length ≤ r.write.length := by
    rw [RawField.write, hb]
    simp only [List.length_append]
    omega
  rw [writeMessage_succ]
  exact Nat.le_trans hwrite (length_le_of_mem_flatMap hr)

theorem rawFields_writable {depth : Nat} {t : MessageType} {m : t.Carrier}
    (hlen : (writeMessage (depth + 1) t m).length < UInt64.size) {r : RawField}
    (hr : r ∈ rawFields (writeMessage depth) t m)
    : r.Writable := by
  rcases mem_rawFields.1 hr with ⟨f, hf, hnumber, hp⟩
  rcases MessageType.number_bounds hf with ⟨hpos, hlt⟩
  refine ⟨by rw [hnumber]; exact hpos, by rw [hnumber]; exact hlt, payloads_writable ?_ hp⟩
  intro b hb
  have hmem : RawField.mk f.number (.bytes b) ∈ rawFields (writeMessage depth) t m :=
    mem_rawFields.2 ⟨f, hf, rfl, hb⟩
  exact Nat.lt_of_le_of_lt (length_le_of_bytes_mem hmem rfl) hlen

theorem readMessage_writeMessage (depth : Nat) (t : MessageType) (m : t.Carrier)
    (hdepth : t.nesting < depth) (hlen : (writeMessage depth t m).length < UInt64.size)
    : readMessage depth t [writeMessage depth t m] = some m := by
  induction depth generalizing t with
  | zero => exact absurd hdepth (Nat.not_lt_zero _)
  | succ depth ih =>
    have hfields : readFields depth (writeMessage (depth + 1) t m)
        = some (rawFields (writeMessage depth) t m) := by
      rw [writeMessage_succ]
      exact readFields_flatMap_write depth _ fun r hr => rawFields_writable hlen hr
    have hvalue :
        ∀ f ∈ t.fields,
          readValue (readMessage depth) (payloads (writeMessage depth) f.kind (f.get m)) f.kind
            =
          some (f.get m) := by
      intro f hf
      apply readValue_payloads
      intro t' m' hnesting hmem
      have hkind := MessageType.nesting_kind_le hf
      have hraw : RawField.mk f.number (.bytes (writeMessage depth t' m'))
          ∈ rawFields (writeMessage depth) t m :=
        mem_rawFields.2 ⟨f, hf, rfl, hmem⟩
      have hle := length_le_of_bytes_mem hraw rfl
      exact ih t' m' (by omega) (by omega)
    rw [readMessage, mapM_singleton hfields, Option.bind_some, List.flatten_singleton]
    rw [foldlM_eq_some_foldl, MessageType.foldl_set_get t m]
    intro f hf acc
    dsimp only
    rw [rawFields, filter_flatMap_numbered t.pairwise_number _ hf, map_payload_numbered, hvalue f hf]
    rfl

theorem length_writeNumber_le {number n : Nat} (hnumber : number < 0x20000000)
    (hn : n < UInt64.size)
    : (writeNumber number n).length ≤ 15 := by
  have hsize : UInt64.size = 0x10000000000000000 := rfl
  have hpow : Nat.pow 128 5 = 0x800000000 ∧ Nat.pow 128 10 = 0x400000000000000000 := by decide
  have hkey : (writeKey number .varint).length ≤ 5 := by
    apply Varint.length_encode_le _ (by omega)
    rw [hpow.1, WireType.toNat]
    omega
  have hvalue : (Varint.encode n).length ≤ 10 := by
    apply Varint.length_encode_le _ (by omega)
    rw [hpow.2]
    omega
  unfold writeNumber
  split
  . exact Nat.zero_le _
  . rw [List.length_append]
    omega

/--
Whether fields of this kind hold a single number.
-/
def isNumber : FieldKind → Bool
  | .flag | .int32 | .int64 | .enumeration _ => true
  | .text | .enumerations _ | .message _ | .messages _ => false

theorem length_writeValue_le {sub : (t : MessageType) → t.Carrier → List UInt8} {number : Nat}
    (hnumber : number < 0x20000000) {kind : FieldKind} (hkind : isNumber kind = true)
    (v : kind.Carrier)
    : (writeValue sub number kind v).length ≤ 15 := by
  cases kind with
  | flag => exact length_writeNumber_le hnumber (by cases v <;> decide)
  | int32 | enumeration => exact length_writeNumber_le hnumber (ofInt32_lt v)
  | int64 => exact length_writeNumber_le hnumber (ofInt64_lt v)
  | text | enumerations | message | messages => simp [isNumber] at hkind

/--
A message of nothing but numbers can not be too long to be read back.
-/
theorem decode_encode_of_numbers {t : MessageType} (ht : ∀ f ∈ t.fields, isNumber f.kind = true)
    (m : t.Carrier)
    : decode t (encode t m) = some m := by
  have hlength : (encode t m).length ≤ t.fields.length * 15 := by
    rw [encode, writeMessage]
    apply length_flatMap_le
    intro f hf
    exact length_writeValue_le (MessageType.number_bounds hf).2 (ht f hf) _
  have hfields : t.fields.length ≤ 21 := by
    cases t <;> decide
  have hsize : UInt64.size = 0x10000000000000000 := rfl
  have hnesting := t.nesting_le
  apply readMessage_writeMessage (nestingLimit + 1)
  . unfold nestingLimit
    omega
  . exact Nat.lt_of_le_of_lt hlength (by omega)

/--
Every message of every type is read from its bytes as it was, and it alone has these bytes. A length
on the wire is a number of 64 bits, so it cannot announce a message that no memory holds either.
-/
theorem decode_encode_lossless (t : MessageType) (m : t.Carrier) (hlen : (encode t m).length < UInt64.size)
    : decode t (encode t m) = some m ∧ ∀ m', encode t m' = encode t m → m' = m := by
  have hread : ∀ m', (encode t m').length < UInt64.size → decode t (encode t m') = some m' := by
    intro m' hlen'
    have hnesting := t.nesting_le
    exact readMessage_writeMessage (nestingLimit + 1) t m' (by unfold nestingLimit; omega) hlen'
  refine ⟨hread m hlen, ?_⟩
  intro m' heq
  have hread' := hread m' (by rw [heq]; exact hlen)
  rw [heq, hread m hlen] at hread'
  exact (Option.some.inj hread').symm

/--
A message with a negative number, a key of two bytes, texts that are empty and a message inside that
is present but empty.
-/
def nested : IncomingEvent where
  keys := [ { frame := -1, port := 77, rightTrigger := true, xAxis := -128 } ]
  start := some {}
  invalid := [ {}, { consoleId := -9 } ]

theorem decode_encode_lossless_nested
    : (encode .incomingEvent nested).length < UInt64.size
      ∧
    decode .incomingEvent (encode .incomingEvent nested) = some nested
      ∧
    ∀ m' : IncomingEvent, encode .incomingEvent m' = encode .incomingEvent nested → m' = nested := by
  have hlen : (encode .incomingEvent nested).length < UInt64.size := by
    decide +kernel
  exact ⟨hlen, decode_encode_lossless .incomingEvent nested hlen⟩

end Wire
end PadRelay
