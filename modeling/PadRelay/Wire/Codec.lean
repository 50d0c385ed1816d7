import PadRelay.Message.Fields
import PadRelay.Wire.RawField

/-!
This module contains the coding of messages as bytes. It is driven by the field tables: a message is
written field by field, and it is read by interpreting, for each of its fields, all payloads that carry
the number of that field.
-/

namespace PadRelay.Wire

def nestingLimit : Nat := 100

def ofInt32 (v : Int32) : Nat :=
  v.toInt64.toUInt64.toNat

def ofInt64 (v : Int64) : Nat :=
  v.toUInt64.toNat

/--
A field with a number. Zero is what an absent field stands for, so it is not written.
-/
def writeNumber (number : Nat) (n : Nat) : List UInt8 :=
  if n = 0 then [] else writeKey number .varint ++ Varint.encode n

def writeBytes (number : Nat) (b : List UInt8) : List UInt8 :=
  writeKey number .bytes ++ (Varint.encode b.length ++ b)

/--
The bytes of one field, where `sub` writes the messages that the field may hold.
-/
def writeValue (sub : (t : MessageType) → t.Carrier → List UInt8) (number : Nat) :
    (kind : FieldKind) → kind.Carrier → List UInt8
  | .flag, v => writeNumber number (Bool.toNat v)
  | .int32, v => writeNumber number (ofInt32 v)
  | .int64, v => writeNumber number (ofInt64 v)
  | .text, v => if v = "" then [] else writeBytes number v.toUTF8.toList
  | .enumeration _, v => writeNumber number (ofInt32 v)
  | .enumerations _, vs =>
    if vs = [] then [] else writeBytes number (vs.flatMap fun v => Varint.encode (ofInt32 v))
  | .message t, v =>
    match v with
    | none => []
    | some m => writeBytes number (sub t m)
  | .messages t, ms => ms.flatMap fun m => writeBytes number (sub t m)

/--
The bytes of a message in which messages are nested less than `depth` deep.
-/
def writeMessage : (depth : Nat) → (t : MessageType) → t.Carrier → List UInt8
  | 0, _, _ => []
  | depth + 1, t, m =>
    t.fields.flatMap fun f => writeValue (writeMessage depth) f.number f.kind (f.get m)

def encode (t : MessageType) (m : t.Carrier) : List UInt8 :=
  writeMessage (nestingLimit + 1) t m

def numbers (ps : List Payload) : Option (List Nat) :=
  ps.mapM fun
    | .varint n => some n
    | _ => none

def listNumbers : Payload → Option (List Nat)
  | .varint n => some [n]
  | .bytes b => Varint.decodeAll b
  | _ => none

def chunks (ps : List Payload) : Option (List (List UInt8)) :=
  ps.mapM fun
    | .bytes b => some b
    | _ => none

def readText (b : List UInt8) : Option String :=
  String.fromUTF8? ⟨b.toArray⟩

/--
The value of a field from all of its payloads in order, where `sub` reads the messages that the field
may hold. Of several numbers or texts the last one counts, several lists are joined, and several
messages are read as if their fields stood in one.
-/
def readValue (sub : (t : MessageType) → List (List UInt8) → Option t.Carrier)
    (ps : List Payload) : (kind : FieldKind) → Option kind.Carrier
  | .flag => (numbers ps).map fun ns => ns.getLastD 0 != 0
  | .int32 => (numbers ps).map fun ns => Int32.ofNat (ns.getLastD 0)
  | .int64 => (numbers ps).map fun ns => Int64.ofNat (ns.getLastD 0)
  | .text => ((chunks ps).bind fun cs => cs.mapM readText).map fun ss => ss.getLastD ""
  | .enumeration _ => (numbers ps).map fun ns => Int32.ofNat (ns.getLastD 0)
  | .enumerations _ => (ps.mapM listNumbers).map fun ns => ns.flatten.map Int32.ofNat
  | .message t =>
    (chunks ps).bind fun
      | [] => some none
      | c :: cs => (sub t (c :: cs)).map some
  | .messages t => (chunks ps).bind fun cs => cs.mapM fun c => sub t [c]

/--
The message whose fields are spread over some byte sequences and in which messages and groups are
nested less than `depth` deep.
-/
def readMessage : (depth : Nat) → (t : MessageType) → List (List UInt8) → Option t.Carrier
  | 0, _, _ => none
  | depth + 1, t, cs =>
    (cs.mapM (readFields depth)).bind fun raws =>
      t.fields.foldlM
        (fun m f =>
          let ps := (raws.flatten.filter fun r => r.number == f.number).map (·.payload)
          (readValue (readMessage depth) ps f.kind).map fun v => f.set v m)
        t.empty

/--
The message that `bytes` encode.
-/
def decode (t : MessageType) (bytes : List UInt8) : Option t.Carrier :=
  readMessage (nestingLimit + 1) t [bytes]

end PadRelay.Wire
