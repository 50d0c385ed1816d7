import PadRelay.Proofs.FrameQueue.History

/-!
This module contains the theory of the last frame that a queue can give. A get adds one to the number of
the frame that was read before it, and that number has 32 bits. The sum is exact as long as there is a
next frame. Whether a queue ever gets to the last one depends on its delay: if it is negative there are
frames that no put can be for, otherwise every frame can be read. The sum in a put is a checked one.
-/

namespace PadRelay
namespace FrameQueue

variable {β : Type} {q : FrameQueue β} {delay : Int32}

/-- Whether the frame that a get expects is the true successor of the last one that was read. -/
def ExpectsNext (q : FrameQueue β) : Prop :=
  (q.latest + 1).toInt = q.latest.toInt + 1

theorem expectsNext_iff : q.ExpectsNext ↔ q.latest.toInt + 1 < 0x80000000 := by
  constructor
  . intro h
    unfold ExpectsNext at h
    rw [← h]
    exact Int32.toInt_lt _
  . exact toInt_add_one

/-- A put says so if its sum is no number of 32 bits. -/
theorem put_eq_frameOverflow_iff {frame : Int32} {buttons : β}
    : q.put frame buttons = .error (.frameOverflow frame q.delay) ↔
        0 ≤ frame ∧ 0x80000000 ≤ q.target frame := by
  unfold put target
  constructor
  . intro h
    split at h
    . simp at h
    . next hframe =>
      rw [Int32.not_lt] at hframe
      refine ⟨hframe, ?_⟩
      rw [Int32.le_iff_toInt_le, Int32.toInt_zero] at hframe
      have hdelay := Int32.le_toInt q.delay
      apply Classical.byContradiction
      intro hlt
      have hsum : (Int32.ofInt (frame.toInt + q.delay.toInt)).toInt = frame.toInt + q.delay.toInt :=
        Int32.toInt_ofInt_of_le (by omega) (by omega)
      rw [addFrames?_eq_some_iff.2 hsum] at h
      dsimp at h
      repeat' split at h
      all_goals simp at h
  . rintro ⟨hframe, hover⟩
    rw [if_neg (Int32.not_lt.2 hframe)]
    cases hsum : addFrames? frame q.delay with
    | none => rfl
    | some x =>
      have hlt := Int32.toInt_lt x
      rw [addFrames?_eq_some_iff] at hsum
      omega

theorem new_cases (hq : q = forLocal delay ∨ q = forRemote delay)
    : q.latest = -1 ∧ q.frames = ∅ ∧ (q.initial = q.delay ∨ q.delay = 0) := by
  rcases hq with rfl | rfl
  . exact ⟨rfl, rfl, Or.inl rfl⟩
  . exact ⟨rfl, rfl, Or.inr rfl⟩

variable [Inhabited β]

theorem length_returns_le (q : FrameQueue β) (r : Request β) : (q.returns r).length ≤ 1 := by
  cases r with
  | put frame buttons => simp [returns]
  | get frame =>
    unfold returns
    dsimp
    split <;> simp

namespace Became

variable {q' : FrameQueue β} {stored returned : List (Int32 × β)}

theorem expectsNext_iff (h : q.Became q' stored returned)
    : q'.ExpectsNext ↔ returned.length < 0x80000000 := by
  rw [FrameQueue.expectsNext_iff, h.latest]
  omega

/-- No put is for the last frame if the delay is negative, and without one it is not read. -/
theorem length_ne_of_delay_neg (h : q.Became q' stored returned) (hdelay : q.delay < 0)
    (hinitial : q.initial ≤ 0) : returned.length ≠ 0x80000000 := by
  intro hlength
  rcases h.mem_returned (by decide : (0 : Int) ≤ 0x7FFFFFFF) (by omega) with ⟨r, hr, hlast⟩
  rw [Int32.lt_iff_toInt_lt, Int32.toInt_zero] at hdelay
  rw [Int32.le_iff_toInt_le, Int32.toInt_zero] at hinitial
  rcases h.values r hr with ⟨hbelow, _⟩ | ⟨_, p, _, htarget, _⟩
  . rw [Int32.lt_iff_toInt_lt] at hbelow
    omega
  . have hlt := Int32.toInt_lt p.1
    unfold target at htarget
    omega

/-- The bound on what was read is kept by every request, and with it all that the theory needs. -/
theorem length_lt_of_delay_neg (h : q.Became q' stored returned) (hdelay : q.delay < 0)
    (hinitial : q.initial ≤ 0) (hfew : returned.length < 0x80000000) (requests : List (Request β))
    : (returned ++ q'.returned requests).length < 0x80000000 := by
  induction requests generalizing q' stored returned with
  | nil => simpa [FrameQueue.returned] using hfew
  | cons r rest ih =>
    have hone := q'.length_returns_le r
    have hnext := h.after r (by rw [List.length_append]; omega)
    have hne := hnext.length_ne_of_delay_neg hdelay hinitial
    have hfew' : (returned ++ q'.returns r).length < 0x80000000 := by
      rw [List.length_append] at hne ⊢
      omega
    rw [FrameQueue.returned, ← List.append_assoc]
    exact ih hnext hfew'

end Became

/-- A read that goes without buttons that were put, since the frame is within the initial delay. -/
theorem after_get_of_lt (h : q.latest + 1 < q.initial)
    : q.after (.get (q.latest + 1)) = { q with latest := q.latest + 1 } := by
  have hget := get_eq_ok_iff.2 ⟨rfl, Or.inl ⟨h, rfl, rfl⟩⟩
  simp [after, hget]

/-- A read of a frame that was just put into an empty queue, which is empty afterwards. -/
theorem after_get_after_put (hframes : q.frames = ∅) (hlt : q.latest < q.latest + 1)
    (h : q.initial ≤ q.latest + 1) {frame : Int32} (hframe : 0 ≤ frame)
    (htarget : q.target frame = (q.latest + 1).toInt) (buttons : β)
    : (q.after (.put frame buttons)).after (.get (q.latest + 1)) = { q with latest := q.latest + 1 } := by
  have hfree : q.frames.get? (q.latest + 1) = none := by
    rw [hframes]
    rfl
  have hput : q.put frame buttons
      = .ok { q with frames := q.frames.insert (q.latest + 1) buttons } :=
    put_eq_ok_iff.2 ⟨q.latest + 1, hframe, htarget.symm, h, hlt, hfree, rfl⟩
  have hafter : q.after (.put frame buttons)
      = { q with frames := q.frames.insert (q.latest + 1) buttons } := by
    simp [after, hput]
  have hget : (q.after (.put frame buttons)).get (q.latest + 1)
      = .ok (buttons, { q with
          latest := q.latest + 1,
          frames := (q.frames.insert (q.latest + 1) buttons).erase (q.latest + 1) }) := by
    rw [hafter]
    exact get_eq_ok_iff.2 ⟨rfl, Or.inr ⟨h, SortedMap.get?_insert_self _ _ _, rfl⟩⟩
  have hempty : (q.frames.insert (q.latest + 1) buttons).erase (q.latest + 1) = q.frames := by
    apply SortedMap.ext_get?
    intro x
    rw [SortedMap.get?_erase, SortedMap.get?_insert, hframes]
    split <;> rfl
  rw [hempty] at hget
  rw [after.eq_def]
  simp [hget]

/-- Every frame can be read if there is a put for each that is not within the initial delay. -/
theorem exists_afterAll_latest (hlatest : q.latest = -1) (hframes : q.frames = ∅)
    (hsource : ∀ x : Int32, 0 ≤ x → q.initial ≤ x → ∃ frame : Int32, 0 ≤ frame ∧
      q.target frame = x.toInt)
    {n : Nat} (hn : n ≤ 0x80000000)
    : ∃ requests, ∃ x : Int32, x.toInt + 1 = n ∧ q.afterAll requests = { q with latest := x } := by
  induction n with
  | zero => exact ⟨[], -1, rfl, by rw [← hlatest]; rfl⟩
  | succ n ih =>
    rcases ih (by omega) with ⟨requests, x, hx, hq⟩
    have hnext : (x + 1).toInt = x.toInt + 1 := toInt_add_one (by omega)
    by_cases hbelow : x + 1 < q.initial
    . refine ⟨requests ++ [.get (x + 1)], x + 1, by omega, ?_⟩
      rw [afterAll_append, hq]
      exact after_get_of_lt hbelow
    . rw [Int32.not_lt] at hbelow
      have hnonneg : 0 ≤ x + 1 := by
        rw [Int32.le_iff_toInt_le, Int32.toInt_zero]
        omega
      have hlt : x < x + 1 := by
        rw [Int32.lt_iff_toInt_lt]
        omega
      rcases hsource (x + 1) hnonneg hbelow with ⟨frame, hframe, htarget⟩
      refine ⟨requests ++ [.put frame default, .get (x + 1)], x + 1, by omega, ?_⟩
      rw [afterAll_append, hq]
      exact after_get_after_put (q := { q with latest := x }) hframes hlt hbelow hframe htarget default

section NewQueue

theorem exists_afterAll_last (hq : q = forLocal delay ∨ q = forRemote delay) (hdelay : 0 ≤ q.delay)
    : ∃ requests, q.afterAll requests = { q with latest := Int32.maxValue } := by
  rcases new_cases hq with ⟨hlatest, hframes, hinitial⟩
  rw [Int32.le_iff_toInt_le, Int32.toInt_zero] at hdelay
  have hsource : ∀ x : Int32, 0 ≤ x → q.initial ≤ x → ∃ frame : Int32, 0 ≤ frame ∧
      q.target frame = x.toInt := by
    intro x hx hle
    rw [Int32.le_iff_toInt_le, Int32.toInt_zero] at hx
    rw [Int32.le_iff_toInt_le] at hle
    have hlt := Int32.toInt_lt x
    have hdelayed : q.delay.toInt ≤ x.toInt := by
      rcases hinitial with heq | heq
      . rw [← heq]
        exact hle
      . rw [heq]
        exact hx
    have hframe : (Int32.ofInt (x.toInt - q.delay.toInt)).toInt = x.toInt - q.delay.toInt :=
      Int32.toInt_ofInt_of_le (by omega) (by omega)
    refine ⟨Int32.ofInt (x.toInt - q.delay.toInt), ?_, ?_⟩
    . rw [Int32.le_iff_toInt_le, Int32.toInt_zero, hframe]
      omega
    . rw [target, hframe]
      omega
  rcases exists_afterAll_latest hlatest hframes hsource (Nat.le_refl _) with ⟨requests, x, hx, hend⟩
  have hlast : x = Int32.maxValue := by
    rw [← Int32.toInt_inj, Int32.toInt_maxValue]
    omega
  exact ⟨requests, hlast ▸ hend⟩

/-- Until the last frame was read every sum is exact, and no negative frame is given. -/
theorem expectsNext_afterAll (hq : q = forLocal delay ∨ q = forRemote delay)
    {requests : List (Request β)} (hfew : (q.returned requests).length < 0x80000000)
    : (q.afterAll requests).ExpectsNext ∧
        (q.afterAll requests).latest.toInt = lastOf (q.returned requests) ∧
        ∀ frame r, (q.afterAll requests).get frame = .ok r → 0 ≤ frame := by
  rcases new_cases hq with ⟨hlatest, hframes, _⟩
  have h := became_afterAll hlatest hframes hfew
  refine ⟨h.expectsNext_iff.2 hfew, ?_, ?_⟩
  . rw [h.lastOf_returned]
    have := h.latest
    omega
  . intro frame r hget
    have hframe := ((h.get_iff hfew frame).1 ⟨r, hget⟩).1
    rw [Int32.le_iff_toInt_le, hframe]
    exact Int.natCast_nonneg _

theorem length_returned_lt (hq : q = forLocal delay ∨ q = forRemote delay) (hdelay : q.delay < 0)
    (requests : List (Request β)) : (q.returned requests).length < 0x80000000 := by
  rcases new_cases hq with ⟨hlatest, hframes, hinitial⟩
  have hzero : q.initial ≤ 0 := by
    rcases hinitial with heq | heq
    . rw [heq]
      exact Int32.le_of_lt hdelay
    . rw [heq] at hdelay
      exact absurd hdelay (by decide)
  exact (became_self hlatest hframes).length_lt_of_delay_neg hdelay hzero (by simp) requests

/--
What a get adds up never overflows if and only if the delay is negative: otherwise the queue can be read
up to the last frame, after which there is no next one.
-/
theorem expectsNext_afterAll_iff (hq : q = forLocal delay ∨ q = forRemote delay)
    : (∀ requests, (q.afterAll requests).ExpectsNext) ↔ q.delay < 0 := by
  constructor
  . intro hall
    apply Int32.not_le.1
    intro hdelay
    rcases exists_afterAll_last hq hdelay with ⟨requests, hlast⟩
    have hnext := hall requests
    rw [hlast] at hnext
    exact absurd hnext (by decide : ¬(Int32.maxValue + 1).toInt = Int32.maxValue.toInt + 1)
  . intro hdelay requests
    exact (expectsNext_afterAll hq (length_returned_lt hq hdelay requests)).1

/-- After the last frame a queue with an initial delay gives the default buttons for a negative one. -/
theorem exists_get_minValue (hq : q = forLocal delay ∨ q = forRemote delay) (hdelay : 0 ≤ q.delay)
    (hinitial : Int32.minValue < q.initial)
    : ∃ requests q', (q.afterAll requests).get Int32.minValue = .ok (default, q') := by
  rcases exists_afterAll_last hq hdelay with ⟨requests, hlast⟩
  refine ⟨requests, { q with latest := Int32.minValue }, ?_⟩
  have hwrap : Int32.minValue = Int32.maxValue + 1 := by decide
  rw [hlast]
  exact get_eq_ok_iff.2 ⟨hwrap, Or.inl ⟨hinitial, rfl, rfl⟩⟩

/--
No sum overflows as long as there is a next frame, which is always if the delay is negative: a get expects
the true successor of the last frame that was read, which is not negative, and gives buttons for no other
one. A put stores buttons under the exact sum of its frame and the delay, or says that this is no number
of 32 bits.
-/
theorem sums_exact (hq : q = forLocal delay ∨ q = forRemote delay) (requests : List (Request β))
    (hfew : (q.returned requests).length < 0x80000000 ∨ q.delay < 0)
    : let q' := q.afterAll requests
      q'.ExpectsNext ∧ q'.latest.toInt = lastOf (q.returned requests) ∧ 0 ≤ q'.latest + 1 ∧
        (∀ frame r, q'.get frame = .ok r → 0 ≤ frame) ∧
        (∀ frame buttons q'', q'.put frame buttons = .ok q'' →
          ∃ x, x.toInt = q.target frame ∧ q''.frames.get? x = some buttons) ∧
        ∀ frame buttons, q'.put frame buttons = .error (.frameOverflow frame q.delay) ↔
          0 ≤ frame ∧ 0x80000000 ≤ q.target frame := by
  intro q'
  have hfew : (q.returned requests).length < 0x80000000 := by
    cases hfew with
    | inl hfew => exact hfew
    | inr hdelay => exact length_returned_lt hq hdelay requests
  rcases new_cases hq with ⟨hlatest, hframes, _⟩
  have h : q.Became q' (q.stored requests) (q.returned requests) :=
    became_afterAll hlatest hframes hfew
  have htarget : ∀ frame, q'.target frame = q.target frame := by
    intro frame
    rw [target, h.delay, target]
  rcases expectsNext_afterAll hq hfew with ⟨hnext, hlast, hget⟩
  have hnext' : (q'.latest + 1).toInt = q'.latest.toInt + 1 := hnext
  refine ⟨hnext, hlast, ?_, hget, ?_, ?_⟩
  . rw [Int32.le_iff_toInt_le, hnext', h.latest, Int32.toInt_zero]
    exact Int.natCast_nonneg _
  . intro frame buttons q'' hput
    rcases put_eq_ok_iff.1 hput with ⟨x, _, hx, _, _, _, rfl⟩
    rw [← htarget]
    exact ⟨x, hx, SortedMap.get?_insert_self _ _ _⟩
  . intro frame buttons
    rw [← htarget, ← h.delay]
    exact put_eq_frameOverflow_iff

theorem sums_exact_alternating
    : let q := (forLocal 2 : FrameQueue Nat).afterAll alternating
      q.ExpectsNext ∧ q.latest.toInt = 3 ∧ 0 ≤ q.latest + 1 ∧
        q.put Int32.maxValue 1 = .error (.frameOverflow Int32.maxValue 2) := by
  intro q
  have hfew : ((forLocal 2 : FrameQueue Nat).returned alternating).length < 0x80000000 := by
    decide +kernel
  rcases sums_exact (Or.inl rfl) alternating (Or.inl hfew) with ⟨hnext, hlast, hnonneg, _, _, hput⟩
  refine ⟨hnext, hlast.trans (by decide +kernel), hnonneg, ?_⟩
  exact (hput Int32.maxValue 1).2 ⟨by decide, by decide⟩

/--
A queue that is read up to the last frame has no next one. What a get expects then is a negative number,
and for that it gives the default buttons.
-/
theorem not_sums_exact
    : (¬ ∀ requests, ((forRemote 1 : FrameQueue UInt32).afterAll requests).ExpectsNext) ∧
        ∃ requests q', ((forRemote 1 : FrameQueue UInt32).afterAll requests).get Int32.minValue
          = .ok (0, q') := by
  constructor
  . rw [expectsNext_afterAll_iff (Or.inr rfl)]
    decide
  . exact exists_get_minValue (Or.inr rfl) (by decide) (by decide)

end NewQueue

end FrameQueue
end PadRelay
