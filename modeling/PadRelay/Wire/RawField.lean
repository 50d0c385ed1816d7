import PadRelay.Wire.Varint

/-!
This module contains fields as they lie on the wire: a number and a payload whose shape can be told
without knowing the message type. Groups are an obsolete shape. No message here uses them, so they are
only skipped.
-/

namespace PadRelay.Wire

inductive WireType where
  | varint
  | fixed64
  | bytes
  | groupStart
  | groupEnd
  | fixed32
deriving DecidableEq, Repr

def WireType.ofNat? : Nat → Option WireType
  | 0 => some .varint
  | 1 => some .fixed64
  | 2 => some .bytes
  | 3 => some .groupStart
  | 4 => some .groupEnd
  | 5 => some .fixed32
  | _ => none

def WireType.toNat : WireType → Nat
  | .varint => 0
  | .fixed64 => 1
  | .bytes => 2
  | .groupStart => 3
  | .groupEnd => 4
  | .fixed32 => 5

/--
What a field holds on the wire. Only the payloads that some message uses keep their contents.
-/
inductive Payload where
  | varint (n : Nat)
  | bytes (b : List UInt8)
  | fixed64
  | fixed32
  | group
deriving DecidableEq, Repr

structure RawField where
  number : Nat
  payload : Payload
deriving DecidableEq, Repr

def writeKey (number : Nat) (shape : WireType) : List UInt8 :=
  Varint.encode (8 * number + shape.toNat)

/--
Reads the announcement of a field. A key has at most 32 bits and field numbers start at one.
-/
def readKey (bytes : List UInt8) : Option ((Nat × WireType) × List UInt8) :=
  match Varint.decode bytes with
  | none => none
  | some (key, rest) =>
    if key < UInt32.size ∧ 8 ≤ key then
      (WireType.ofNat? (key % 8)).map fun shape => ((key / 8, shape), rest)
    else
      none

/--
Splits off the first `n` bytes, if there are that many.
-/
def takeBytes (n : Nat) (bytes : List UInt8) : Option (List UInt8 × List UInt8) :=
  if n ≤ bytes.length then some (bytes.splitAt n) else none

def readBytes (bytes : List UInt8) : Option (List UInt8 × List UInt8) :=
  match Varint.decode bytes with
  | none => none
  | some (n, rest) => takeBytes n rest

def readPayload : WireType → List UInt8 → Option (Payload × List UInt8)
  | .varint, bytes => (Varint.decode bytes).map fun r => (.varint r.1, r.2)
  | .bytes, bytes => (readBytes bytes).map fun r => (.bytes r.1, r.2)
  | .fixed64, bytes => (takeBytes 8 bytes).map fun r => (.fixed64, r.2)
  | .fixed32, bytes => (takeBytes 4 bytes).map fun r => (.fixed32, r.2)
  | .groupStart, _ => none
  | .groupEnd, _ => none

theorem length_lt_of_readKey {bytes : List UInt8} {r : (Nat × WireType) × List UInt8}
    (h : readKey bytes = some r) : r.2.length < bytes.length := by
  simp only [readKey] at h
  split at h
  . simp at h
  . rename_i hd
    have := Varint.length_lt_of_decode hd
    split at h
    . obtain ⟨_, _, rfl⟩ := Option.map_eq_some_iff.1 h
      exact this
    . simp at h

theorem length_le_of_takeBytes {n : Nat} {bytes : List UInt8} {r : List UInt8 × List UInt8}
    (h : takeBytes n bytes = some r) : r.2.length ≤ bytes.length := by
  simp only [takeBytes] at h
  split at h
  . cases h
    simp
  . simp at h

theorem length_le_of_readPayload {shape : WireType} {bytes : List UInt8}
    {r : Payload × List UInt8} (h : readPayload shape bytes = some r) :
    r.2.length ≤ bytes.length := by
  cases shape with
  | varint =>
    obtain ⟨r', h', rfl⟩ := Option.map_eq_some_iff.1 h
    exact Nat.le_of_lt (Varint.length_lt_of_decode h')
  | bytes =>
    obtain ⟨r', h', rfl⟩ := Option.map_eq_some_iff.1 h
    simp only [readBytes] at h'
    split at h'
    . simp at h'
    . rename_i hd
      have := Varint.length_lt_of_decode hd
      have := length_le_of_takeBytes h'
      simp at *
      omega
  | fixed64 =>
    obtain ⟨r', h', rfl⟩ := Option.map_eq_some_iff.1 h
    exact length_le_of_takeBytes h'
  | fixed32 =>
    obtain ⟨r', h', rfl⟩ := Option.map_eq_some_iff.1 h
    exact length_le_of_takeBytes h'
  | groupStart => simp [readPayload] at h
  | groupEnd => simp [readPayload] at h

/--
Skips the fields of the groups whose numbers are in `opened`, innermost first, up to the end of the
outermost one. A field may lie in fewer than `limit` groups.
-/
def skipGroups (limit : Nat) (opened : List Nat) (bytes : List UInt8) : Option (List UInt8) :=
  match opened with
  | [] => some bytes
  | number :: outer =>
    match h : readKey bytes with
    | none => none
    | some ((n, shape), rest) =>
      have : rest.length < bytes.length := length_lt_of_readKey h
      if shape = .groupEnd then
        if n = number then skipGroups limit outer rest else none
      else if limit ≤ outer.length + 1 then
        none
      else if shape = .groupStart then
        skipGroups limit (n :: number :: outer) rest
      else
        match h' : readPayload shape rest with
        | none => none
        | some (_, rest') =>
          have : rest'.length ≤ rest.length := length_le_of_readPayload h'
          skipGroups limit (number :: outer) rest'
termination_by bytes.length

theorem length_le_of_skipGroups {limit : Nat} {opened : List Nat} {bytes r : List UInt8}
    (h : skipGroups limit opened bytes = some r) : r.length ≤ bytes.length := by
  fun_induction skipGroups limit opened bytes <;> simp_all <;> omega

/--
Reads one field. A group has to end before the bytes do and is nested at most `limit` deep.
-/
def readField (limit : Nat) (bytes : List UInt8) : Option (RawField × List UInt8) :=
  match readKey bytes with
  | none => none
  | some ((n, shape), rest) =>
    if shape = .groupStart then
      (skipGroups limit [n] rest).map fun rest => (⟨n, .group⟩, rest)
    else
      (readPayload shape rest).map fun r => (⟨n, r.1⟩, r.2)

theorem length_lt_of_readField {limit : Nat} {bytes : List UInt8} {r : RawField × List UInt8}
    (h : readField limit bytes = some r) : r.2.length < bytes.length := by
  simp only [readField] at h
  split at h
  . simp at h
  . rename_i hk
    have hlt := length_lt_of_readKey hk
    split at h
    . obtain ⟨_, h', rfl⟩ := Option.map_eq_some_iff.1 h
      have := length_le_of_skipGroups h'
      simp at *
      omega
    . obtain ⟨_, h', rfl⟩ := Option.map_eq_some_iff.1 h
      have := length_le_of_readPayload h'
      simp at *
      omega

/--
All fields in `bytes`, if the bytes consist of nothing but fields.
-/
def readFields (limit : Nat) (bytes : List UInt8) : Option (List RawField) :=
  match bytes with
  | [] => some []
  | b :: bs =>
    match h : readField limit (b :: bs) with
    | none => none
    | some (f, rest) =>
      have : rest.length < (b :: bs).length := length_lt_of_readField h
      (readFields limit rest).map (f :: ·)
termination_by bytes.length
decreasing_by assumption

end PadRelay.Wire
