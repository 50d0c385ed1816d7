import PadRelay.Proofs.FrameQueue

/-!
This module contains the theory of a queue under any requests: puts and gets in any order, of which any
may be refused. The buttons that were stored and those that were returned so far tell everything about
the queue: what it still has, what it takes next and what it gives next.
-/

namespace PadRelay
namespace FrameQueue

variable {β : Type}

inductive Request (β : Type) where
  | put (frame : Int32) (buttons : β)
  | get (frame : Int32)

def Request.isPut : Request β → Bool
  | .put _ _ => true
  | .get _ => false

/-- The number that the buttons of a frame are stored under, be it a number of 32 bits or not. -/
def target (q : FrameQueue β) (frame : Int32) : Int :=
  frame.toInt + q.delay.toInt

/-- The last frame that was returned, which is `-1` before the first. -/
def lastOf (returned : List (Int32 × β)) : Int :=
  (returned.getLast?.map (·.1.toInt)).getD (-1)

/-- No two puts that a queue took are stored under the same number. -/
theorem filter_target_eq {q : FrameQueue β} {stored : List (Int32 × β)} {p : Int32 × β}
    (h : stored.Pairwise fun a b => q.target a.1 ≠ q.target b.1) (hmem : p ∈ stored)
    : stored.filter (fun p' => q.target p'.1 = q.target p.1) = [p] := by
  induction stored with
  | nil => simp at hmem
  | cons hd tl ih =>
    rw [List.pairwise_cons] at h
    cases List.mem_cons.1 hmem with
    | inl heq =>
      rw [heq, List.filter_cons_of_pos (by simp), List.filter_eq_nil_iff.2]
      intro p' hp'
      simpa using (h.1 p' hp').symm
    | inr hmem =>
      rw [List.filter_cons_of_neg (by simpa using h.1 p hmem), ih h.2 hmem]

variable [Inhabited β]

/-- The queue after a request. One that fails gives no queue back, so the old one is still there. -/
def after (q : FrameQueue β) : Request β → FrameQueue β
  | .put frame buttons =>
    match q.put frame buttons with
    | .error _ => q
    | .ok q' => q'
  | .get frame =>
    match q.get frame with
    | .error _ => q
    | .ok (_, q') => q'

def afterAll (q : FrameQueue β) (requests : List (Request β)) : FrameQueue β :=
  requests.foldl after q

def stores (q : FrameQueue β) : Request β → List (Int32 × β)
  | .put frame buttons =>
    match q.put frame buttons with
    | .error _ => []
    | .ok _ => [(frame, buttons)]
  | .get _ => []

def returns (q : FrameQueue β) : Request β → List (Int32 × β)
  | .put _ _ => []
  | .get frame =>
    match q.get frame with
    | .error _ => []
    | .ok (buttons, _) => [(frame, buttons)]

/-- The puts that were accepted, in the order in which they came and with the frames they were for. -/
def stored (q : FrameQueue β) : List (Request β) → List (Int32 × β)
  | [] => []
  | r :: rest => q.stores r ++ (q.after r).stored rest

/-- The gets that succeeded, in the order in which they came and with what they gave. -/
def returned (q : FrameQueue β) : List (Request β) → List (Int32 × β)
  | [] => []
  | r :: rest => q.returns r ++ (q.after r).returned rest

theorem afterAll_append (q : FrameQueue β) (requests requests' : List (Request β))
    : q.afterAll (requests ++ requests') = (q.afterAll requests).afterAll requests' := by
  simp [afterAll]

theorem after_of_put_error {q : FrameQueue β} {frame : Int32} {buttons : β} {e : QueueError}
    (h : q.put frame buttons = .error e) : q.after (.put frame buttons) = q := by
  simp [after, h]

theorem after_of_get_error {q : FrameQueue β} {frame : Int32} {e : QueueError}
    (h : q.get frame = .error e) : q.after (.get frame) = q := by
  simp [after, h]

/--
`q` became `q'` after it took the buttons in `stored` and gave those in `returned`. It still has what
it took for the frames that it did not give yet.
-/
structure Became (q q' : FrameQueue β) (stored returned : List (Int32 × β)) : Prop where
  delay : q'.delay = q.delay
  initial : q'.initial = q.initial
  latest : q'.latest.toInt + 1 = returned.length
  order : ∀ (n : Nat) (r : Int32 × β), returned[n]? = some r → r.1.toInt = n
  lawful : ∀ p ∈ stored, ∃ x : Int32, q.target p.1 = x.toInt ∧ 0 ≤ x.toInt ∧ q.initial ≤ x
  apart : stored.Pairwise fun a b => q.target a.1 ≠ q.target b.1
  frames : ∀ x v, q'.frames.get? x = some v ↔
    ∃ p ∈ stored, q.target p.1 = x.toInt ∧ p.2 = v ∧ returned.length ≤ x.toInt
  values : ∀ r ∈ returned, (r.1 < q.initial ∧ r.2 = default) ∨
    (q.initial ≤ r.1 ∧ ∃ p ∈ stored, q.target p.1 = r.1.toInt ∧ p.2 = r.2)

variable {q q' q'' : FrameQueue β} {stored returned : List (Int32 × β)} {frame : Int32} {buttons : β}

theorem became_self (hlatest : q.latest = -1) (hframes : q.frames = ∅) : q.Became q [] [] where
  delay := rfl
  initial := rfl
  latest := by
    rw [hlatest]
    rfl
  order := by simp
  lawful := by simp
  apart := List.Pairwise.nil
  frames := by simp [hframes]
  values := by simp

namespace Became

theorem free_iff (h : q.Became q' stored returned) {x : Int32} (hx : returned.length ≤ x.toInt)
    : q'.frames.get? x = none ↔ ∀ p ∈ stored, q.target p.1 ≠ x.toInt := by
  constructor
  . intro hfree p hp heq
    have := (h.frames x p.2).2 ⟨p, hp, heq, rfl, hx⟩
    rw [hfree] at this
    simp at this
  . intro hnone
    cases hget : q'.frames.get? x with
    | none => rfl
    | some v =>
      rcases (h.frames x v).1 hget with ⟨p, hp, heq, _⟩
      exact absurd heq (hnone p hp)

/-- What is put is taken unless one of the five reasons speaks against it. -/
theorem put_iff (h : q.Became q' stored returned) (frame : Int32) (buttons : β)
    : (∃ q'', q'.put frame buttons = .ok q'') ↔
        0 ≤ frame ∧
          (Int32.minValue.toInt ≤ q.target frame ∧ q.target frame ≤ Int32.maxValue.toInt) ∧
            q.initial.toInt ≤ q.target frame ∧ returned.length ≤ q.target frame ∧
              ∀ p ∈ stored, q.target p.1 ≠ q.target frame := by
  have hlatest := h.latest
  constructor
  . rintro ⟨q'', hput⟩
    rcases put_eq_ok_iff.1 hput with ⟨x, hframe, hx, hinitial, hlt, hfree, -⟩
    rw [h.delay] at hx
    have htarget : q.target frame = x.toInt := hx.symm
    have hle : returned.length ≤ x.toInt := by
      rw [Int32.lt_iff_toInt_lt] at hlt
      omega
    rw [h.initial, Int32.le_iff_toInt_le] at hinitial
    rw [htarget]
    refine ⟨hframe, ⟨Int32.le_toInt x, ?_⟩, hinitial, hle, (h.free_iff hle).1 hfree⟩
    have := Int32.toInt_lt x
    rw [Int32.toInt_maxValue]
    omega
  . rintro ⟨hframe, ⟨hmin, hmax⟩, hinitial, hlt, hfree⟩
    rw [Int32.toInt_minValue] at hmin
    rw [Int32.toInt_maxValue] at hmax
    have hx : (Int32.ofInt (q.target frame)).toInt = q.target frame :=
      Int32.toInt_ofInt_of_le (by omega) (by omega)
    generalize Int32.ofInt (q.target frame) = x at hx
    refine ⟨_, put_eq_ok_iff.2 ⟨x, hframe, ?_, ?_, ?_, ?_, rfl⟩⟩
    . rw [h.delay]
      exact hx
    . rw [h.initial, Int32.le_iff_toInt_le, hx]
      exact hinitial
    . rw [Int32.lt_iff_toInt_lt, hx]
      omega
    . rw [h.free_iff (by omega), hx]
      exact hfree

theorem mem_returned (h : q.Became q' stored returned) {x : Int} (hx : 0 ≤ x)
    (hlt : x < returned.length) : ∃ r ∈ returned, r.1.toInt = x := by
  have hn : x.toNat < returned.length := by omega
  refine ⟨returned[x.toNat], List.getElem_mem hn, ?_⟩
  rw [h.order x.toNat _ (List.getElem?_eq_getElem hn)]
  omega

theorem lt_of_mem_returned (h : q.Became q' stored returned) {r : Int32 × β} (hr : r ∈ returned)
    : r.1.toInt < returned.length := by
  rcases List.mem_iff_getElem?.1 hr with ⟨n, hn⟩
  have hlt := (List.getElem?_eq_some_iff.1 hn).1
  rw [h.order n r hn]
  omega

theorem waits_iff (h : q.Became q' stored returned) {x : Int} (hx : 0 ≤ x)
    : (∀ r ∈ returned, r.1.toInt ≠ x) ↔ returned.length ≤ x := by
  constructor
  . intro hnone
    apply Int.not_lt.1
    intro hlt
    rcases h.mem_returned hx hlt with ⟨r, hr, heq⟩
    exact hnone r hr heq
  . intro hle r hr
    have := h.lt_of_mem_returned hr
    omega

/--
Whether a put is taken does not depend on the frames that were returned: one that was returned and is
not below the initial delay was put before.
-/
theorem put_iff_of_stored (h : q.Became q' stored returned) (frame : Int32) (buttons : β)
    : (∃ q'', q'.put frame buttons = .ok q'') ↔
        0 ≤ frame ∧
          (Int32.minValue.toInt ≤ q.target frame ∧ q.target frame ≤ Int32.maxValue.toInt) ∧
            q.initial.toInt ≤ q.target frame ∧ 0 ≤ q.target frame ∧
              ∀ p ∈ stored, q.target p.1 ≠ q.target frame := by
  rw [h.put_iff]
  constructor
  . rintro ⟨hframe, hfits, hinitial, hlt, hfree⟩
    exact ⟨hframe, hfits, hinitial, by omega, hfree⟩
  . rintro ⟨hframe, hfits, hinitial, hnonneg, hfree⟩
    refine ⟨hframe, hfits, hinitial, ?_, hfree⟩
    rw [← h.waits_iff hnonneg]
    intro r hr heq
    rcases h.values r hr with ⟨hbelow, _⟩ | ⟨_, p, hp, htarget, _⟩
    . rw [Int32.lt_iff_toInt_lt] at hbelow
      omega
    . exact hfree p hp (htarget.trans heq)

theorem put (h : q.Became q' stored returned) (hput : q'.put frame buttons = .ok q'')
    : q.Became q'' (stored ++ [(frame, buttons)]) returned := by
  rcases (h.put_iff frame buttons).1 ⟨q'', hput⟩ with ⟨_, _, _, hlt, hfree⟩
  rcases put_eq_ok_iff.1 hput with ⟨x, _, hx, hinitial, _, _, rfl⟩
  rw [h.delay] at hx
  rw [h.initial] at hinitial
  have htarget : q.target frame = x.toInt := hx.symm
  refine ⟨h.delay, h.initial, h.latest, h.order, ?_, ?_, ?_, ?_⟩
  . intro p hp
    rcases List.mem_append.1 hp with hp | hp
    . exact h.lawful p hp
    . rw [List.mem_singleton.1 hp]
      exact ⟨x, htarget, by omega, hinitial⟩
  . rw [List.pairwise_append]
    refine ⟨h.apart, List.pairwise_singleton _ _, ?_⟩
    intro p hp p' hp'
    rw [List.mem_singleton.1 hp']
    exact hfree p hp
  . intro y v
    dsimp
    rw [SortedMap.get?_insert]
    split
    . next heq =>
      subst heq
      constructor
      . intro hv
        rw [Option.some.injEq] at hv
        exact ⟨(frame, buttons), by simp, htarget, hv, by omega⟩
      . rintro ⟨p, hp, heq, rfl, _⟩
        rcases List.mem_append.1 hp with hp | hp
        . exact absurd (heq.trans htarget.symm) (hfree p hp)
        . rw [List.mem_singleton.1 hp]
    . next hne =>
      rw [h.frames]
      constructor
      . rintro ⟨p, hp, hrest⟩
        exact ⟨p, List.mem_append_left _ hp, hrest⟩
      . rintro ⟨p, hp, heq, hrest⟩
        rcases List.mem_append.1 hp with hp | hp
        . exact ⟨p, hp, heq, hrest⟩
        . rw [List.mem_singleton.1 hp] at heq
          have : y.toInt = x.toInt := heq.symm.trans htarget
          exact absurd (Int32.toInt_inj.1 this) hne
  . intro r hr
    rcases h.values r hr with hbelow | ⟨hinitial', p, hp, hrest⟩
    . exact Or.inl hbelow
    . exact Or.inr ⟨hinitial', p, List.mem_append_left _ hp, hrest⟩

theorem get_iff (h : q.Became q' stored returned) (hfew : returned.length < 0x80000000)
    (frame : Int32)
    : (∃ r, q'.get frame = .ok r) ↔
        frame.toInt = returned.length ∧
          (frame < q.initial ∨ ∃ p ∈ stored, q.target p.1 = frame.toInt) := by
  have hlatest := h.latest
  have hnext : (q'.latest + 1).toInt = returned.length := by
    rw [toInt_add_one] <;> omega
  constructor
  . rintro ⟨⟨buttons, q''⟩, hget⟩
    rcases get_eq_ok_iff.1 hget with ⟨rfl, ⟨hbelow, _⟩ | ⟨_, hsome, _⟩⟩
    . rw [h.initial] at hbelow
      exact ⟨hnext, Or.inl hbelow⟩
    . rcases (h.frames _ _).1 hsome with ⟨p, hp, heq, _⟩
      exact ⟨hnext, Or.inr ⟨p, hp, heq⟩⟩
  . rintro ⟨hframe, hcase⟩
    have hexpected : frame = q'.latest + 1 := by
      rw [← Int32.toInt_inj, hframe, hnext]
    rw [← h.initial] at hcase
    by_cases hbelow : frame < q'.initial
    . exact ⟨(default, _), get_eq_ok_iff.2 ⟨hexpected, Or.inl ⟨hbelow, rfl, rfl⟩⟩⟩
    . rcases hcase.resolve_left hbelow with ⟨p, hp, heq⟩
      have hsome := (h.frames frame p.2).2 ⟨p, hp, heq, rfl, by omega⟩
      exact ⟨(p.2, _), get_eq_ok_iff.2 ⟨hexpected, Or.inr ⟨Int32.not_lt.1 hbelow, hsome, rfl⟩⟩⟩

theorem get (h : q.Became q' stored returned) (hfew : returned.length < 0x80000000)
    (hget : q'.get frame = .ok (buttons, q''))
    : q.Became q'' stored (returned ++ [(frame, buttons)]) := by
  have hframe : frame.toInt = returned.length := ((h.get_iff hfew frame).1 ⟨_, hget⟩).1
  have horder : ∀ (n : Nat) (r : Int32 × β), (returned ++ [(frame, buttons)])[n]? = some r →
      r.1.toInt = n := by
    intro n r hr
    rw [List.getElem?_append] at hr
    split at hr
    . exact h.order n r hr
    . next hge =>
      rw [List.getElem?_singleton] at hr
      split at hr
      . rw [Option.some.injEq] at hr
        rw [← hr]
        dsimp
        omega
      . simp at hr
  have hlength : ((returned ++ [(frame, buttons)]).length : Int) = returned.length + 1 := by simp
  rcases get_eq_ok_iff.1 hget with ⟨_, ⟨hbelow, rfl, rfl⟩ | ⟨hinitial, hsome, rfl⟩⟩
  . rw [h.initial] at hbelow
    refine ⟨h.delay, h.initial, ?_, horder, h.lawful, h.apart, ?_, ?_⟩
    . rw [hlength, ← hframe]
    . -- The frame is within the initial delay, so nothing can be stored under it.
      intro x v
      rw [h.frames]
      rw [Int32.lt_iff_toInt_lt] at hbelow
      rw [hlength]
      constructor
      . rintro ⟨p, hp, heq, hv, hle⟩
        rcases h.lawful p hp with ⟨y, hy, _, hinitial⟩
        rw [Int32.le_iff_toInt_le] at hinitial
        exact ⟨p, hp, heq, hv, by omega⟩
      . rintro ⟨p, hp, heq, hv, hle⟩
        exact ⟨p, hp, heq, hv, by omega⟩
    . intro r hr
      rcases List.mem_append.1 hr with hr | hr
      . exact h.values r hr
      . rw [List.mem_singleton.1 hr]
        exact Or.inl ⟨hbelow, rfl⟩
  . rw [h.initial] at hinitial
    refine ⟨h.delay, h.initial, ?_, horder, h.lawful, h.apart, ?_, ?_⟩
    . rw [hlength, ← hframe]
    . intro x v
      dsimp
      rw [SortedMap.get?_erase, hlength]
      split
      . next heq =>
        subst heq
        constructor
        . simp
        . rintro ⟨p, hp, heq, hv, hle⟩
          omega
      . next hne =>
        have hother : x.toInt ≠ frame.toInt := fun heq => hne (Int32.toInt_inj.1 heq)
        rw [h.frames]
        constructor
        . rintro ⟨p, hp, heq, hv, hle⟩
          exact ⟨p, hp, heq, hv, by omega⟩
        . rintro ⟨p, hp, heq, hv, hle⟩
          exact ⟨p, hp, heq, hv, by omega⟩
    . intro r hr
      rcases List.mem_append.1 hr with hr | hr
      . exact h.values r hr
      . rw [List.mem_singleton.1 hr]
        rcases (h.frames _ _).1 hsome with ⟨p, hp, heq, hv, _⟩
        exact Or.inr ⟨hinitial, p, hp, heq, hv⟩

theorem after (h : q.Became q' stored returned) (r : Request β)
    (hfew : (returned ++ q'.returns r).length ≤ 0x80000000)
    : q.Became (q'.after r) (stored ++ q'.stores r) (returned ++ q'.returns r) := by
  cases r with
  | put frame buttons =>
    unfold FrameQueue.after stores returns
    dsimp
    split
    . simpa using h
    . next hput => simpa using h.put hput
  | get frame =>
    unfold returns at hfew
    unfold FrameQueue.after stores returns
    dsimp at hfew ⊢
    split
    . simpa using h
    . next hget =>
      rw [hget] at hfew
      simp only [List.length_append, List.length_singleton] at hfew
      simpa using h.get (by omega) hget

theorem afterAll (h : q.Became q' stored returned) (requests : List (Request β))
    (hfew : (returned ++ q'.returned requests).length ≤ 0x80000000)
    : q.Became (q'.afterAll requests) (stored ++ q'.stored requests)
        (returned ++ q'.returned requests) := by
  induction requests generalizing q' stored returned with
  | nil => simpa [FrameQueue.afterAll, FrameQueue.stored, FrameQueue.returned] using h
  | cons r rest ih =>
    unfold FrameQueue.returned at hfew
    unfold FrameQueue.stored FrameQueue.returned
    rw [← List.append_assoc] at hfew
    rw [← List.append_assoc, ← List.append_assoc]
    apply ih (h.after r _) hfew
    rw [List.length_append] at hfew
    omega

/-- The numbers of the frames that are waiting are those of the puts that were not returned. -/
theorem size_eq (h : q.Became q' stored returned)
    : q'.size = (stored.filter fun p => ∀ r ∈ returned, r.1.toInt ≠ q.target p.1).length := by
  have hperm : (q'.frames.keys.map Int32.toInt).Perm
      ((stored.filter fun p => ∀ r ∈ returned, r.1.toInt ≠ q.target p.1).map (q.target ·.1)) := by
    rw [List.perm_ext_iff_of_nodup]
    . intro n
      simp only [List.mem_map, SortedMap.mem_keys_iff, List.mem_filter, decide_eq_true_eq]
      constructor
      . rintro ⟨x, ⟨v, hget⟩, rfl⟩
        rcases (h.frames x v).1 hget with ⟨p, hp, heq, _, hle⟩
        rw [← heq] at hle
        exact ⟨p, ⟨hp, (h.waits_iff (by omega)).2 hle⟩, heq⟩
      . rintro ⟨p, ⟨hp, hnone⟩, rfl⟩
        rcases h.lawful p hp with ⟨x, hx, hnonneg, _⟩
        rw [h.waits_iff (by omega), hx] at hnone
        exact ⟨x, ⟨p.2, (h.frames x p.2).2 ⟨p, hp, hx, rfl, hnone⟩⟩, hx.symm⟩
    . rw [List.Nodup, List.pairwise_map]
      apply List.Pairwise.imp _ q'.frames.keys_nodup
      intro a b hne heq
      exact hne (Int32.toInt_inj.1 heq)
    . rw [List.Nodup, List.pairwise_map]
      exact h.apart.filter _
  have := hperm.length_eq
  simpa [FrameQueue.size, SortedMap.size, SortedMap.keys] using this

theorem lastOf_returned (h : q.Became q' stored returned)
    : lastOf returned = (returned.length : Int) - 1 := by
  unfold lastOf
  rw [List.getLast?_eq_getElem?]
  cases hlast : returned[returned.length - 1]? with
  | none =>
    rw [List.getElem?_eq_none_iff] at hlast
    dsimp
    omega
  | some r =>
    have hlt := (List.getElem?_eq_some_iff.1 hlast).1
    have := h.order _ r hlast
    dsimp
    omega

theorem frames_returned (h : q.Became q' stored returned)
    : returned.map (·.1.toInt) = (List.range returned.length).map Int.ofNat := by
  apply List.ext_getElem?
  intro n
  rw [List.getElem?_map, List.getElem?_map]
  cases hn : returned[n]? with
  | none =>
    rw [List.getElem?_eq_none_iff] at hn
    rw [List.getElem?_eq_none (by simpa using hn)]
    rfl
  | some r =>
    have hlt := (List.getElem?_eq_some_iff.1 hn).1
    rw [List.getElem?_range hlt]
    simp [h.order n r hn]

theorem length_filter_returned (h : q.Became q' stored returned) (x : Int)
    : (returned.filter fun r => r.1.toInt = x).length ≤ 1 := by
  have hnodup : ((List.range returned.length).map Int.ofNat).Nodup := by
    rw [List.Nodup, List.pairwise_map]
    apply List.Pairwise.imp _ List.nodup_range
    intro a b hne heq
    exact hne (Int.ofNat.inj heq)
  have hcount : returned.countP (fun r => r.1.toInt = x)
      = (returned.map (·.1.toInt)).count x := by
    rw [List.count, List.countP_map]
    congr
  rw [← List.countP_eq_length_filter, hcount, h.frames_returned]
  exact List.nodup_iff_count.1 hnodup x

theorem values_eq (h : q.Became q' stored returned) {r : Int32 × β} (hr : r ∈ returned)
    : if r.1 < q.initial then r.2 = default
      else ∃ frame, stored.filter (fun p => q.target p.1 = r.1.toInt) = [(frame, r.2)] := by
  rcases h.values r hr with ⟨hbelow, hdefault⟩ | ⟨hinitial, p, hp, htarget, hvalue⟩
  . rw [if_pos hbelow]
    exact hdefault
  . rw [if_neg (Int32.not_lt.2 hinitial), ← htarget, ← hvalue]
    exact ⟨p.1, filter_target_eq h.apart hp⟩

section TwoQueues

variable {p : FrameQueue β} {returned' : List (Int32 × β)}

theorem stores_eq (h : q.Became q' stored returned) (h' : q.Became p stored returned')
    (frame : Int32) (buttons : β)
    : q'.stores (.put frame buttons) = p.stores (.put frame buttons) := by
  have hiff := (h.put_iff_of_stored frame buttons).trans (h'.put_iff_of_stored frame buttons).symm
  unfold stores
  dsimp
  cases hput : q'.put frame buttons <;> cases hput' : p.put frame buttons <;> simp_all

/-- The queue takes the same puts as one from which nothing is ever read. -/
theorem stored_eq_filter (h : q.Became q' stored returned) (h' : q.Became p stored [])
    (requests : List (Request β)) (hfew : (returned ++ q'.returned requests).length ≤ 0x80000000)
    : q'.stored requests = p.stored (requests.filter Request.isPut) := by
  induction requests generalizing q' p stored returned with
  | nil => rfl
  | cons r rest ih =>
    unfold FrameQueue.returned at hfew
    rw [← List.append_assoc] at hfew
    have hone : (returned ++ q'.returns r).length ≤ 0x80000000 := by
      rw [List.length_append] at hfew
      omega
    have hnext := h.after r hone
    cases r with
    | put frame buttons =>
      have hstores := h.stores_eq h' frame buttons
      have hnext' := h'.after (.put frame buttons) (by simp [returns])
      rw [← hstores] at hnext'
      rw [List.filter_cons_of_pos rfl]
      unfold FrameQueue.stored
      rw [← hstores]
      congr 1
      exact ih hnext hnext' hfew
    | get frame =>
      have hstores : q'.stores (.get frame) = [] := rfl
      rw [hstores, List.append_nil] at hnext
      rw [List.filter_cons_of_neg (by simp [Request.isPut]), ← ih hnext h' hfew]
      rfl

theorem eq_of_frame_eq (h : q.Became q' stored returned) (h' : q.Became p stored returned')
    {r r' : Int32 × β} (hr : r ∈ returned) (hr' : r' ∈ returned') (heq : r.1 = r'.1)
    : r = r' := by
  apply Prod.ext heq
  have hvalue := h.values_eq hr
  have hvalue' := h'.values_eq hr'
  rw [← heq] at hvalue'
  split at hvalue
  . next hbelow =>
    rw [if_pos hbelow] at hvalue'
    rw [hvalue, hvalue']
  . next hbelow =>
    rw [if_neg hbelow] at hvalue'
    rcases hvalue with ⟨frame, hone⟩
    rcases hvalue' with ⟨frame', hone'⟩
    rw [hone] at hone'
    simp at hone'
    exact hone'.2

theorem prefix_of_length_le (h : q.Became q' stored returned) (h' : q.Became p stored returned')
    (hle : returned.length ≤ returned'.length) : returned <+: returned' := by
  rw [List.prefix_iff_getElem?]
  intro n hn
  have hn' : n < returned'.length := by omega
  have hframe := h.order n _ (List.getElem?_eq_getElem hn)
  have hframe' := h'.order n _ (List.getElem?_eq_getElem hn')
  rw [List.getElem?_eq_getElem hn', Option.some.injEq]
  apply Eq.symm
  apply h.eq_of_frame_eq h' (List.getElem_mem hn) (List.getElem_mem hn')
  rw [← Int32.toInt_inj, hframe, hframe']

end TwoQueues

end Became

/-- What a queue does with a list of requests and what it does with the next one. -/
structure Specified (q : FrameQueue β) (requests : List (Request β)) : Prop where
  order : (q.returned requests).map (·.1.toInt)
      =
    (List.range (q.returned requests).length).map Int.ofNat
  /-- A frame has the default buttons or those of the only put that is stored under its number. -/
  values : ∀ r ∈ q.returned requests,
    if r.1 < q.initial then r.2 = default
    else ∃ frame, (q.stored requests).filter (fun p => q.target p.1 = r.1.toInt) = [(frame, r.2)]
  put_iff : ∀ frame buttons, (∃ q', (q.afterAll requests).put frame buttons = .ok q') ↔
    0 ≤ frame ∧
      (Int32.minValue.toInt ≤ q.target frame ∧ q.target frame ≤ Int32.maxValue.toInt) ∧
        q.initial.toInt ≤ q.target frame ∧ lastOf (q.returned requests) < q.target frame ∧
          ∀ p ∈ q.stored requests, q.target p.1 ≠ q.target frame
  get_iff : ∀ frame, (∃ r, (q.afterAll requests).get frame = .ok r) ↔
    frame.toInt = lastOf (q.returned requests) + 1 ∧
      (frame < q.initial ∨ ∃ p ∈ q.stored requests, q.target p.1 = frame.toInt)
  /-- What is waiting are the puts that were accepted and not returned. -/
  frames : ∀ x buttons, (q.afterAll requests).frames.get? x = some buttons ↔
    (∃ frame, (frame, buttons) ∈ q.stored requests ∧ q.target frame = x.toInt) ∧
      ∀ r ∈ q.returned requests, r.1.toInt ≠ x.toInt
  ahead : ∀ x buttons, (q.afterAll requests).frames.get? x = some buttons →
    lastOf (q.returned requests) < x.toInt
  once : ∀ p ∈ q.stored requests,
    ((q.returned requests).filter fun r => r.1.toInt = q.target p.1).length ≤ 1
  size : (q.afterAll requests).size
      =
    ((q.stored requests).filter fun p =>
      ∀ r ∈ q.returned requests, r.1.toInt ≠ q.target p.1).length
  put_error : ∀ frame buttons e, (q.afterAll requests).put frame buttons = .error e →
    q.afterAll (requests ++ [.put frame buttons]) = q.afterAll requests
  get_error : ∀ frame e, (q.afterAll requests).get frame = .error e →
    q.afterAll (requests ++ [.get frame]) = q.afterAll requests

theorem Became.specified {requests : List (Request β)}
    (h : q.Became (q.afterAll requests) (q.stored requests) (q.returned requests))
    (hfew : (q.returned requests).length < 0x80000000)
    : q.Specified requests where
  order := h.frames_returned
  values _ hr := h.values_eq hr
  put_iff frame buttons := by
    have hlt : lastOf (q.returned requests) < q.target frame
        ↔ (q.returned requests).length ≤ q.target frame := by
      rw [h.lastOf_returned]
      omega
    rw [hlt]
    exact h.put_iff frame buttons
  get_iff frame := by
    rw [h.lastOf_returned, Int.sub_add_cancel]
    exact h.get_iff hfew frame
  frames x buttons := by
    rw [h.frames]
    constructor
    . rintro ⟨p, hp, heq, rfl, hle⟩
      exact ⟨⟨p.1, hp, heq⟩, (h.waits_iff (by omega)).2 hle⟩
    . rintro ⟨⟨frame, hp, heq⟩, hnone⟩
      rcases h.lawful _ hp with ⟨y, hy, hnonneg, _⟩
      dsimp at hy
      exact ⟨_, hp, heq, rfl, (h.waits_iff (by omega)).1 hnone⟩
  ahead x buttons hget := by
    rcases (h.frames x buttons).1 hget with ⟨_, _, _, _, hle⟩
    rw [h.lastOf_returned]
    omega
  once p _ := h.length_filter_returned _
  size := h.size_eq
  put_error frame buttons e he := by
    rw [afterAll_append]
    exact after_of_put_error he
  get_error frame e he := by
    rw [afterAll_append]
    exact after_of_get_error he

theorem became_afterAll {requests : List (Request β)} (hlatest : q.latest = -1)
    (hframes : q.frames = ∅) (hfew : (q.returned requests).length < 0x80000000)
    : q.Became (q.afterAll requests) (q.stored requests) (q.returned requests) := by
  apply (became_self hlatest hframes).afterAll requests
  rw [List.nil_append]
  omega

/--
A queue with any delay does what is specified under any requests. Which puts it takes and what it gives
for a frame depends on the puts and their order only, not on when frames are read.
-/
theorem queue_specified {delay : Int32} {q : FrameQueue β}
    (hq : q = forLocal delay ∨ q = forRemote delay) (requests : List (Request β))
    (hfew : (q.returned requests).length < 0x80000000)
    : q.Specified requests ∧
        ∀ requests', (q.returned requests').length < 0x80000000 →
          requests.filter Request.isPut = requests'.filter Request.isPut →
            q.stored requests = q.stored requests' ∧
              (q.returned requests <+: q.returned requests' ∨
                q.returned requests' <+: q.returned requests) := by
  have hnew : q.latest = -1 ∧ q.frames = ∅ := by
    cases hq with
    | inl hq => exact hq ▸ ⟨rfl, rfl⟩
    | inr hq => exact hq ▸ ⟨rfl, rfl⟩
  have hself := became_self hnew.1 hnew.2
  have h := became_afterAll hnew.1 hnew.2 hfew
  refine ⟨h.specified hfew, ?_⟩
  intro requests' hfew' hputs
  have h' := became_afterAll hnew.1 hnew.2 hfew'
  have hstored : q.stored requests = q.stored requests' := by
    rw [hself.stored_eq_filter hself requests, hself.stored_eq_filter hself requests', hputs]
    . rw [List.nil_append]
      omega
    . rw [List.nil_append]
      omega
  rw [← hstored] at h'
  refine ⟨hstored, ?_⟩
  cases Nat.le_total (q.returned requests).length (q.returned requests').length with
  | inl hle => exact Or.inl (h.prefix_of_length_le h' hle)
  | inr hle => exact Or.inr (h'.prefix_of_length_le h hle)

/-- A reader that is early, late and early again, and a writer that repeats a frame. -/
def alternating : List (Request Nat) :=
  [.get 0, .put 0 10, .put 0 11, .get 1, .get 2, .get 3, .put (-1) 9, .put 1 12, .get 3, .put 0 13]

theorem queue_specified_alternating
    : (forLocal 2 : FrameQueue Nat).Specified alternating ∧
        (forLocal 2).stored alternating = [(0, 10), (1, 12)] ∧
          (forLocal 2).returned alternating = [(0, 0), (1, 0), (2, 10), (3, 12)] ∧
            (forLocal 2).stored alternating
              =
            (forLocal 2).stored (alternating.filter Request.isPut) := by
  have h := queue_specified (q := forLocal 2) (Or.inl rfl) alternating (by decide +kernel)
  refine ⟨h.1, by decide +kernel, by decide +kernel, ?_⟩
  exact (h.2 (alternating.filter Request.isPut) (by decide +kernel) (by simp)).1

end FrameQueue
end PadRelay
