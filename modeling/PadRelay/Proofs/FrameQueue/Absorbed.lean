import PadRelay.Coder
import PadRelay.Proofs.FrameQueue

/-!
This module contains the theory of queues that are filled with messages of others and read frame by frame:
what is in such a queue is what the messages said about frames that were not read yet.
-/

namespace PadRelay

variable {β : Type}

/-- The port and the frame that a message is about. -/
def KeyState.target (key : KeyState) : Port × Int32 :=
  (Port.ofNumber key.port, key.frame)

namespace FrameQueue

/--
The queue of `port` after the messages `seen` were stored in it and `next` frames were read. What is in
it are the buttons of the frames to come.
-/
structure Absorbed (coder : Coder β) (port : Port) (initial : Int32) (seen : List KeyState)
    (next : Nat) (q : FrameQueue β) : Prop where
  delay : q.delay = 0
  initial : q.initial = initial
  latest : q.latest.toInt + 1 = next
  frames : ∀ frame buttons, q.frames.get? frame = some buttons ↔
    (next : Int) ≤ frame.toInt ∧
      ∃ key ∈ seen, key.target = (port, frame) ∧ coder.decode key = .ok buttons

namespace Absorbed

variable {coder : Coder β} {port : Port} {initial frame : Int32} {seen : List KeyState}
  {next : Nat} {q : FrameQueue β} {key : KeyState} {buttons : β}

theorem forRemote (coder : Coder β) (port : Port) (initial : Int32)
    : (FrameQueue.forRemote initial : FrameQueue β).Absorbed coder port initial [] 0 where
  delay := rfl
  initial := rfl
  latest := rfl
  frames frame buttons := by
    constructor
    . intro h
      simp [FrameQueue.forRemote] at h
    . simp

theorem put (h : q.Absorbed coder port initial seen next) (hport : key.target.1 = port)
    (hdecode : coder.decode key = .ok buttons) (hnonneg : 0 ≤ key.frame)
    (hinitial : initial ≤ key.frame) (hnext : (next : Int) ≤ key.frame.toInt)
    (hnew : ∀ key' ∈ seen, key'.target ≠ key.target)
    : ∃ q', q.put key.frame buttons = .ok q' ∧
        q'.Absorbed coder port initial (seen ++ [key]) next := by
  have htarget : key.target = (port, key.frame) := by
    rw [← hport]
    rfl
  have hfree : q.frames.get? key.frame = none := by
    cases hget : q.frames.get? key.frame with
    | none => rfl
    | some v =>
      rcases (h.frames key.frame v).1 hget with ⟨_, key', hkey', heq, _⟩
      exact absurd (heq.trans htarget.symm) (hnew key' hkey')
  refine ⟨{ q with frames := q.frames.insert key.frame buttons }, ?_,
    h.delay, h.initial, h.latest, ?_⟩
  . rw [put_eq_ok_iff]
    refine ⟨key.frame, hnonneg, ?_, ?_, ?_, hfree, rfl⟩
    . rw [h.delay, Int32.toInt_zero]
      omega
    . rw [h.initial]
      exact hinitial
    . rw [Int32.lt_iff_toInt_lt]
      have := h.latest
      omega
  . intro frame v
    dsimp
    rw [SortedMap.get?_insert]
    simp only [List.mem_append, List.mem_singleton]
    split
    . next heq =>
      subst heq
      constructor
      . intro hv
        rw [Option.some.injEq] at hv
        exact ⟨hnext, key, Or.inr rfl, htarget, hv ▸ hdecode⟩
      . rintro ⟨_, key', hmem | rfl, heq, hdecode'⟩
        . exact absurd (heq.trans htarget.symm) (hnew key' hmem)
        . rw [hdecode, Except.ok.injEq] at hdecode'
          rw [hdecode']
    . next hne =>
      rw [h.frames]
      constructor
      . rintro ⟨hle, key', hmem, hkey'⟩
        exact ⟨hle, key', Or.inl hmem, hkey'⟩
      . rintro ⟨hle, key', hmem | rfl, heq, hdecode'⟩
        . exact ⟨hle, key', hmem, heq, hdecode'⟩
        . rw [htarget, Prod.mk.injEq] at heq
          exact absurd heq.2.symm hne

theorem skip (h : q.Absorbed coder port initial seen next) (hport : key.target.1 ≠ port)
    : q.Absorbed coder port initial (seen ++ [key]) next := by
  refine ⟨h.delay, h.initial, h.latest, ?_⟩
  intro frame v
  rw [h.frames]
  simp only [List.mem_append, List.mem_singleton]
  constructor
  . rintro ⟨hle, key', hmem, hkey'⟩
    exact ⟨hle, key', Or.inl hmem, hkey'⟩
  . rintro ⟨hle, key', hmem | rfl, heq, hdecode⟩
    . exact ⟨hle, key', hmem, heq, hdecode⟩
    . rw [heq] at hport
      exact absurd rfl hport

theorem expected (h : q.Absorbed coder port initial seen next) (hframe : frame.toInt = next)
    : frame = q.latest + 1 := by
  have hlt := Int32.toInt_lt frame
  have hlatest := h.latest
  rw [← Int32.toInt_inj, toInt_add_one] <;> omega

/-- What is in the queue once the buttons of the next frame have left it. -/
theorem read (h : q.Absorbed coder port initial seen next) (hframe : frame.toInt = next)
    {frames : SortedMap Int32 β} (hframes : ∀ x, x ≠ frame → frames.get? x = q.frames.get? x)
    (hgone : frames.get? frame = none)
    : ({ q with latest := frame, frames } : FrameQueue β).Absorbed coder port initial seen
        (next + 1) := by
  refine ⟨h.delay, h.initial, ?_, ?_⟩
  . dsimp
    omega
  . intro x v
    dsimp
    by_cases heq : x = frame
    . rw [heq, hgone]
      constructor
      . simp
      . rintro ⟨hle, _⟩
        omega
    . have hne : x.toInt ≠ frame.toInt := fun hx => heq (Int32.toInt_inj.1 hx)
      rw [hframes x heq, h.frames]
      constructor
      . rintro ⟨hle, hkey⟩
        exact ⟨by omega, hkey⟩
      . rintro ⟨hle, hkey⟩
        exact ⟨by omega, hkey⟩

theorem get?_frames_of_not_mem (h : q.Absorbed coder port initial seen next)
    (hnone : ∀ key ∈ seen, key.target ≠ (port, frame)) : q.frames.get? frame = none := by
  cases hget : q.frames.get? frame with
  | none => rfl
  | some v =>
    rcases (h.frames frame v).1 hget with ⟨_, key, hmem, heq, _⟩
    exact absurd heq (hnone key hmem)

variable [Inhabited β]

theorem get_of_lt (h : q.Absorbed coder port initial seen next) (hframe : frame.toInt = next)
    (hinitial : frame < initial) (hnone : ∀ key ∈ seen, key.target ≠ (port, frame))
    : ∃ q', q.get frame = .ok (default, q') ∧
        q'.Absorbed coder port initial seen (next + 1) := by
  refine ⟨{ q with latest := frame }, ?_, ?_⟩
  . rw [get_eq_ok_iff]
    refine ⟨h.expected hframe, Or.inl ⟨?_, rfl, rfl⟩⟩
    rw [h.initial]
    exact hinitial
  . exact h.read hframe (fun _ _ => rfl) (h.get?_frames_of_not_mem hnone)

theorem get_of_mem (h : q.Absorbed coder port initial seen next) (hframe : frame.toInt = next)
    (hinitial : initial ≤ frame) (hmem : key ∈ seen) (htarget : key.target = (port, frame))
    (hdecode : coder.decode key = .ok buttons)
    : ∃ q', q.get frame = .ok (buttons, q') ∧
        q'.Absorbed coder port initial seen (next + 1) := by
  refine ⟨{ q with latest := frame, frames := q.frames.erase frame }, ?_, ?_⟩
  . rw [get_eq_ok_iff]
    refine ⟨h.expected hframe, Or.inr ⟨?_, ?_, rfl⟩⟩
    . rw [h.initial]
      exact hinitial
    . rw [h.frames]
      exact ⟨by omega, key, hmem, htarget, hdecode⟩
  . apply h.read hframe
    . intro x hne
      rw [SortedMap.get?_erase, if_neg hne]
    . rw [SortedMap.get?_erase, if_pos rfl]

theorem get_timeout (h : q.Absorbed coder port initial seen next) (hframe : frame.toInt = next)
    (hinitial : initial ≤ frame) (hnone : ∀ key ∈ seen, key.target ≠ (port, frame))
    : q.get frame = .error (.timeout frame) := by
  unfold FrameQueue.get
  dsimp
  rw [if_neg (by simp [← h.expected hframe]), h.initial, if_neg (Int32.not_lt.2 hinitial),
    h.get?_frames_of_not_mem hnone]

end Absorbed

end FrameQueue

end PadRelay
