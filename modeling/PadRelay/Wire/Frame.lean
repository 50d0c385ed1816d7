/-!
This module contains the frames that separate the messages of a stream: a flag, the length of the
message in four bytes, highest first, and the message.
-/

namespace PadRelay.Wire

def frameLimit : Nat := 4 * 1024 * 1024

def writeFrame (message : List UInt8) : List UInt8 :=
  let n := message.length
  0 :: UInt8.ofNat (n / 0x1000000) :: UInt8.ofNat (n / 0x10000) :: UInt8.ofNat (n / 0x100) ::
    UInt8.ofNat n :: message

inductive FrameRead where
  | incomplete
  | malformed
  | frame (message rest : List UInt8)
deriving DecidableEq, Repr

def readFrame : List UInt8 → FrameRead
  | flag :: a :: b :: c :: d :: rest =>
    let n := ((a.toNat * 256 + b.toNat) * 256 + c.toNat) * 256 + d.toNat
    -- The header is judged before the message is there.
    if flag ≠ 0 ∨ frameLimit < n then .malformed
    else if rest.length < n then .incomplete
    else .frame (rest.take n) (rest.drop n)
  | _ => .incomplete

theorem length_lt_of_readFrame {bytes message rest : List UInt8}
    (h : readFrame bytes = .frame message rest) : rest.length < bytes.length := by
  unfold readFrame at h
  split at h
  . simp only at h
    split at h
    . simp at h
    . split at h
      . simp at h
      . cases h
        simp
        omega
  . simp at h

theorem length_of_bytes {n : Nat} (h : n ≤ frameLimit) :
    (((UInt8.ofNat (n / 0x1000000)).toNat * 256 + (UInt8.ofNat (n / 0x10000)).toNat) * 256 +
      (UInt8.ofNat (n / 0x100)).toNat) * 256 + (UInt8.ofNat n).toNat = n := by
  simp only [frameLimit] at h
  simp only [UInt8.toNat_ofNat']
  omega

theorem readFrame_writeFrame {message : List UInt8} (rest : List UInt8)
    (h : message.length ≤ frameLimit) :
    readFrame (writeFrame message ++ rest) = .frame message rest := by
  simp only [writeFrame, readFrame, List.cons_append, length_of_bytes h]
  rw [if_neg (by simpa using h), if_neg (by simp), List.take_left, List.drop_left]

end PadRelay.Wire
