import PadRelay.Proofs.Coder
import PadRelay.Proofs.Wire.RoundTrip

/-!
This module contains the proof that the codings of buttons are exact: a pad and its word determine each
other, and so do the buttons and the fields of a message that hold them. A word therefore survives the
way into a message, through the bytes of the message and back.
-/

namespace PadRelay

namespace Pad

/-- The axes lie above the sixteen buttons. -/
theorem getLsbD_append_append (y x : BitVec 8) (buttons : BitVec 16) (i : Nat)
    : (y ++ (x ++ buttons)).getLsbD i
        =
      if i < 16 then buttons.getLsbD i
      else if i < 24 then x.getLsbD (i - 16)
      else y.getLsbD (i - 24) := by
  rw [BitVec.getLsbD_append, BitVec.getLsbD_append]
  by_cases hlow : i < 16
  . have hin : i < 8 + 16 := by omega
    rw [if_pos hin, if_pos hlow, if_pos hlow]
  . by_cases hx : i < 24
    . rw [if_pos hx, if_neg hlow, if_neg hlow, if_pos hx]
    . rw [if_neg hx, if_neg hlow, if_neg hx]

theorem getLsbD_toRaw (p : Pad) (i : Nat)
    : p.toRaw.toBitVec.getLsbD i
        =
      if i < 16 then p.flags.getD i false
      else if i < 24 then p.xAxis.toBitVec.getLsbD (i - 16)
      else p.yAxis.toBitVec.getLsbD (i - 24) := by
  have hflags : (BitVec.ofBoolListLE p.flags).getLsbD i = p.flags.getD i false :=
    BitVec.getLsbD_ofBoolListLE
  rw [← hflags]
  exact getLsbD_append_append p.yAxis.toBitVec p.xAxis.toBitVec (BitVec.ofBoolListLE p.flags) i

/-- The buttons are read in the order in which they are written. -/
theorem flags_ofRaw (raw : UInt32)
    : (ofRaw raw).flags = (List.range 16).map raw.toBitVec.getLsbD := rfl

theorem toRaw_ofRaw (raw : UInt32) : (ofRaw raw).toRaw = raw := by
  rw [← UInt32.toBitVec_inj]
  apply BitVec.eq_of_getLsbD_eq
  intro i hi
  rw [getLsbD_toRaw, flags_ofRaw]
  split
  . next hlow => simp [hlow]
  . split
    . next hx =>
      have hin : i - 16 < 8 := by omega
      have hbit : 16 + (i - 16) = i := by omega
      simp [ofRaw, hin, hbit]
    . next hy =>
      have hin : i - 24 < 8 := by omega
      have hbit : 24 + (i - 24) = i := by omega
      simp [ofRaw, hin, hbit]

theorem ofRaw_toRaw (p : Pad) : ofRaw p.toRaw = p := by
  have hx : Int8.ofBitVec (p.toRaw.toBitVec.extractLsb' 16 8) = p.xAxis := by
    rw [← Int8.toBitVec_inj]
    apply BitVec.eq_of_getLsbD_eq
    intro i hi
    have hhigh : ¬16 + i < 16 := by omega
    have hlow : 16 + i < 24 := by omega
    rw [Int8.toBitVec_ofBitVec, BitVec.getLsbD_extractLsb', getLsbD_toRaw, if_neg hhigh, if_pos hlow,
      Nat.add_sub_cancel_left]
    simp [hi]
  have hy : Int8.ofBitVec (p.toRaw.toBitVec.extractLsb' 24 8) = p.yAxis := by
    rw [← Int8.toBitVec_inj]
    apply BitVec.eq_of_getLsbD_eq
    intro i hi
    have hhigh : ¬24 + i < 16 := by omega
    have hx : ¬24 + i < 24 := by omega
    rw [Int8.toBitVec_ofBitVec, BitVec.getLsbD_extractLsb', getLsbD_toRaw, if_neg hhigh, if_neg hx,
      Nat.add_sub_cancel_left]
    simp [hi]
  unfold ofRaw
  rw [hx, hy]
  simp only [getLsbD_toRaw]
  rfl

end Pad

/-- A position on an axis that fits into eight bits. -/
def Axis.Fits (value : Int32) : Prop :=
  -128 ≤ value.toInt ∧ value.toInt ≤ 127

section Axis

variable {value : Int32}

theorem readAxis_of_fits (h : Axis.Fits value) (axis : Axis)
    : readAxis axis value = .ok value.toInt8 := by
  have hmin : (-128 : Int32).toInt = -128 := by decide
  have hmax : (127 : Int32).toInt = 127 := by decide
  unfold readAxis
  rw [if_pos]
  rw [Int32.le_iff_toInt_le, Int32.le_iff_toInt_le, hmin, hmax]
  exact h

theorem readAxis_of_not_fits (h : ¬ Axis.Fits value) (axis : Axis)
    : readAxis axis value = .error (.axisOutOfRange axis value) := by
  have hmin : (-128 : Int32).toInt = -128 := by decide
  have hmax : (127 : Int32).toInt = 127 := by decide
  unfold readAxis
  rw [if_neg]
  rw [Int32.le_iff_toInt_le, Int32.le_iff_toInt_le, hmin, hmax]
  exact h

theorem Axis.Fits.toInt32_toInt8 (h : Fits value) : value.toInt8.toInt32 = value := by
  unfold Fits at h
  rw [← Int32.toInt_inj, Int8.toInt_toInt32, Int32.toInt_toInt8]
  apply Int.bmod_eq_of_le
  . omega
  . omega

end Axis

namespace Coder

/-- What a coder reads from a message it would have written there itself. -/
structure Exact {β : Type} (coder : Coder β) : Prop extends coder.Lawful where
  encode_of_decode : ∀ key v, coder.decode key = .ok v → coder.encode v key = .ok key

/-- The horizontal axis is looked at first. -/
theorem pad_decode_eq_error_iff {key : KeyState} {e : CoderError}
    : pad.decode key = .error e ↔
        (¬ Axis.Fits key.xAxis ∧ e = .axisOutOfRange .x key.xAxis) ∨
          (Axis.Fits key.xAxis ∧ ¬ Axis.Fits key.yAxis ∧ e = .axisOutOfRange .y key.yAxis) := by
  unfold pad
  dsimp
  by_cases hx : Axis.Fits key.xAxis
  . by_cases hy : Axis.Fits key.yAxis
    . simp [readAxis_of_fits, hx, hy]
    . simp [readAxis_of_fits, readAxis_of_not_fits, hx, hy, eq_comm]
  . simp [readAxis_of_not_fits, hx, eq_comm]

theorem pad_encode_of_decode {key : KeyState} {p : Pad} (h : pad.decode key = .ok p)
    : pad.encode p key = .ok key := by
  have hx : Axis.Fits key.xAxis := by
    apply Classical.byContradiction
    intro hx
    simp [pad_decode_eq_error_iff.2 (Or.inl ⟨hx, rfl⟩)] at h
  have hy : Axis.Fits key.yAxis := by
    apply Classical.byContradiction
    intro hy
    simp [pad_decode_eq_error_iff.2 (Or.inr ⟨hx, hy, rfl⟩)] at h
  unfold pad at h ⊢
  simp only [readAxis_of_fits hx, readAxis_of_fits hy, Except.ok.injEq] at h
  subst h
  simp [hx.toInt32_toInt8, hy.toInt32_toInt8]

theorem exact_pad : pad.Exact where
  toLawful := lawful_pad
  encode_of_decode _ _ := pad_encode_of_decode

theorem exact_word : word.Exact where
  toLawful := lawful_word
  encode_of_decode key v h := by
    simp only [word, Except.ok.injEq] at h ⊢
    simp [← h]

/--
The word of a pad, the pad and the fields of a message that hold it stand for one another without loss,
and reading fails only for a position on an axis that no pad has. A word that is the buttons itself takes
up a single field. Nothing of this depends on the console, the port or the frame of the message.
-/
theorem codings_exact
    : (∀ raw, (Pad.ofRaw raw).toRaw = raw) ∧ (∀ p, Pad.ofRaw p.toRaw = p) ∧
        pad.Exact ∧
        (∀ key e, pad.decode key = .error e ↔
          (¬ Axis.Fits key.xAxis ∧ e = .axisOutOfRange .x key.xAxis) ∨
            (Axis.Fits key.xAxis ∧ ¬ Axis.Fits key.yAxis ∧ e = .axisOutOfRange .y key.yAxis)) ∧
        word.Exact ∧
        (∀ w key, ∃ x, word.encode w key = .ok { key with xAxis := x }) ∧
        ∀ raw key, ∃ sent received,
          pad.encode (.ofRaw raw) key = .ok sent ∧
          Wire.decode .keyState (Wire.encode .keyState sent) = some received ∧
          received.consoleId = key.consoleId ∧ received.frame = key.frame ∧
          received.port = key.port ∧
          (pad.decode received).map Pad.toRaw = .ok raw := by
  refine ⟨Pad.toRaw_ofRaw, Pad.ofRaw_toRaw, exact_pad, fun _ _ => pad_decode_eq_error_iff,
    exact_word, fun w key => ⟨w.toInt32, rfl⟩, ?_⟩
  intro raw key
  rcases lawful_pad.encode (.ofRaw raw) key with ⟨sent, hsent, hdecode, hconsole, hframe, hport⟩
  have hbytes : Wire.decode .keyState (Wire.encode .keyState sent) = some sent := by
    apply Wire.decode_encode_of_numbers
    decide
  refine ⟨sent, sent, hsent, hbytes, hconsole, hframe, hport, ?_⟩
  rw [hdecode, Except.map, Pad.toRaw_ofRaw]

end Coder
end PadRelay
