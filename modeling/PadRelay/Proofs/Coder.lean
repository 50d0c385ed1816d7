import PadRelay.Coder

/-!
This module contains the theory of coders: buttons that were written into a message are read back from
it, and the message is still about the same port at the same frame.
-/

namespace PadRelay

/-- Encoding always succeeds and keeps the buttons and what the message is about. -/
structure Coder.Lawful {β : Type} (coder : Coder β) : Prop where
  encode : ∀ v key, ∃ key', coder.encode v key = .ok key' ∧ coder.decode key' = .ok v ∧
    key'.consoleId = key.consoleId ∧ key'.frame = key.frame ∧ key'.port = key.port

theorem readAxis_toInt32 (axis : Axis) (value : Int8) : readAxis axis value.toInt32 = .ok value := by
  have hle := Int8.le_toInt value
  have hlt := Int8.toInt_lt value
  have hmin : (-128 : Int32).toInt = -128 := by decide
  have hmax : (127 : Int32).toInt = 127 := by decide
  unfold readAxis
  rw [if_pos]
  . simp
  . rw [Int32.le_iff_toInt_le, Int32.le_iff_toInt_le, hmin, hmax, Int8.toInt_toInt32]
    omega

theorem Coder.lawful_word : Coder.word.Lawful where
  encode v key := by
    refine ⟨_, rfl, ?_, rfl, rfl, rfl⟩
    simp [word]

theorem Coder.lawful_pad : Coder.pad.Lawful where
  encode v key := by
    refine ⟨_, rfl, ?_, rfl, rfl, rfl⟩
    simp [pad, readAxis_toInt32]

end PadRelay
