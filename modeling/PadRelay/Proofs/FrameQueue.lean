import PadRelay.FrameQueue
import PadRelay.Proofs.SortedMap

/-!
This module contains the theory of the queue of one port: when it takes buttons, when it gives them
back, and what is left in it.
-/

namespace PadRelay
namespace FrameQueue

variable {β : Type}

theorem toInt_add_one {x : Int32} (h : x.toInt + 1 < 0x80000000) : (x + 1).toInt = x.toInt + 1 := by
  have hle := Int32.le_toInt x
  rw [Int32.toInt_add, Int32.toInt_one]
  apply Int.bmod_eq_of_le <;> omega

theorem put_eq_ok_iff {q q' : FrameQueue β} {frame : Int32} {buttons : β}
    : q.put frame buttons = .ok q' ↔
        ∃ x, 0 ≤ frame ∧ x.toInt = frame.toInt + q.delay.toInt ∧ q.initial ≤ x ∧ q.latest < x ∧
          q.frames.get? x = none ∧ q' = { q with frames := q.frames.insert x buttons } := by
  unfold put
  constructor
  . intro h
    split at h
    . simp at h
    . next hframe =>
      split at h
      . simp at h
      . next x hx =>
        split at h
        . simp at h
        . next hinitial =>
          split at h
          . simp at h
          . next hlatest =>
            split at h
            . simp at h
            . next hfree =>
              rw [Except.ok.injEq] at h
              rw [addFrames?_eq_some_iff] at hx
              refine ⟨x, Int32.not_lt.1 hframe, hx, Int32.not_lt.1 hinitial,
                Int32.not_le.1 hlatest, ?_, h.symm⟩
              simpa [SortedMap.contains] using hfree
  . rintro ⟨x, hframe, hx, hinitial, hlatest, hfree, rfl⟩
    rw [← addFrames?_eq_some_iff] at hx
    rw [if_neg (Int32.not_lt.2 hframe), hx]
    dsimp
    rw [if_neg (Int32.not_lt.2 hinitial), if_neg (Int32.not_le.2 hlatest)]
    simp [SortedMap.contains, hfree]

/-- Buttons were put into a queue, which changes nothing about those that were in it before. -/
structure Extends (q q' : FrameQueue β) : Prop where
  delay : q'.delay = q.delay
  initial : q'.initial = q.initial
  latest : q'.latest = q.latest
  frames : ∀ frame buttons, q.frames.get? frame = some buttons →
    q'.frames.get? frame = some buttons

theorem Extends.refl (q : FrameQueue β) : q.Extends q := ⟨rfl, rfl, rfl, fun _ _ h => h⟩

theorem Extends.trans {q q' q'' : FrameQueue β} (h : q.Extends q') (h' : q'.Extends q'')
    : q.Extends q'' where
  delay := h'.delay.trans h.delay
  initial := h'.initial.trans h.initial
  latest := h'.latest.trans h.latest
  frames frame buttons hget := h'.frames frame buttons (h.frames frame buttons hget)

theorem extends_put {q q' : FrameQueue β} {frame : Int32} {buttons : β}
    (h : q.put frame buttons = .ok q') : q.Extends q' := by
  rcases put_eq_ok_iff.1 h with ⟨x, _, _, _, _, hfree, rfl⟩
  refine ⟨rfl, rfl, rfl, ?_⟩
  intro frame' buttons' hget
  dsimp
  rw [SortedMap.get?_insert_of_ne _ _ _, hget]
  intro heq
  rw [heq, hfree] at hget
  simp at hget

variable [Inhabited β]

theorem get_eq_ok_iff {q q' : FrameQueue β} {frame : Int32} {buttons : β}
    : q.get frame = .ok (buttons, q') ↔
        frame = q.latest + 1 ∧
          ((frame < q.initial ∧ buttons = default ∧ q' = { q with latest := frame }) ∨
            (q.initial ≤ frame ∧ q.frames.get? frame = some buttons ∧
              q' = { q with latest := frame, frames := q.frames.erase frame })) := by
  unfold get
  dsimp
  constructor
  . intro h
    split at h
    . simp at h
    . next hexpected =>
      rw [Classical.not_not] at hexpected
      refine ⟨hexpected, ?_⟩
      split at h
      . next hinitial =>
        simp only [Except.ok.injEq, Prod.mk.injEq] at h
        exact Or.inl ⟨hinitial, h.1.symm, h.2.symm⟩
      . next hinitial =>
        split at h
        . simp at h
        . next hget =>
          simp only [Except.ok.injEq, Prod.mk.injEq] at h
          exact Or.inr ⟨Int32.not_lt.1 hinitial, h.1 ▸ hget, h.2.symm⟩
  . rintro ⟨hexpected, ⟨hinitial, rfl, rfl⟩ | ⟨hinitial, hget, rfl⟩⟩
    . rw [if_neg (by simp [hexpected]), if_pos hinitial]
    . rw [if_neg (by simp [hexpected]), if_neg (Int32.not_lt.2 hinitial), hget]

theorem get_eq_error_iff {q : FrameQueue β} {frame : Int32} {e : QueueError}
    : q.get frame = .error e ↔
        (frame ≠ q.latest + 1 ∧ e = .unexpectedFrame frame (q.latest + 1)) ∨
          (frame = q.latest + 1 ∧ q.initial ≤ frame ∧ q.frames.get? frame = none ∧
            e = .timeout frame) := by
  unfold get
  dsimp
  by_cases hexpected : frame = q.latest + 1
  . rw [if_neg (by simp [hexpected])]
    by_cases hinitial : frame < q.initial
    . rw [if_pos hinitial]
      simp [hexpected, Int32.not_le.2 (hexpected ▸ hinitial)]
    . rw [if_neg hinitial]
      cases hget : q.frames.get? frame with
      | none => simp [hexpected, hexpected ▸ Int32.not_lt.1 hinitial, eq_comm]
      | some buttons => simp [hexpected]
  . rw [if_pos hexpected]
    simp [hexpected, eq_comm]

end FrameQueue
end PadRelay
