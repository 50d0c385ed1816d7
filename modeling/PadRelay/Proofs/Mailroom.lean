import PadRelay.Member

/-!
This module contains the theory of what a member does to the mailroom. All that members do is confined
to their own mailbox, and `Member.undergo` is the common form of what console operations do to one
member.
-/

namespace PadRelay
namespace Mailbox

theorem post_eq_delivered_iff {b : Mailbox} {e : IncomingEvent}
    : (b.post e).1 = .delivered ↔ b.hasReader = true ∧ b.pending.length < b.capacity := by
  unfold post
  split
  . simp_all
  . split <;> simp_all

theorem post_eq_full_iff {b : Mailbox} {e : IncomingEvent}
    : (b.post e).1 = .full ↔ b.hasReader = true ∧ b.capacity ≤ b.pending.length := by
  unfold post
  split
  . simp_all
  . split <;> simp_all

@[simp]
theorem capacity_post (b : Mailbox) (e : IncomingEvent) : (b.post e).2.capacity = b.capacity := by
  unfold post
  split
  . rfl
  . split <;> rfl

@[simp]
theorem hasReader_post (b : Mailbox) (e : IncomingEvent)
    : (b.post e).2.hasReader = b.hasReader := by
  unfold post
  split
  . rfl
  . split <;> rfl

@[simp]
theorem hasSender_post (b : Mailbox) (e : IncomingEvent)
    : (b.post e).2.hasSender = b.hasSender := by
  unfold post
  split
  . rfl
  . split <;> rfl

theorem pending_post (b : Mailbox) (e : IncomingEvent)
    : (b.post e).2.pending = if (b.post e).1 = .delivered then b.pending ++ [e] else b.pending := by
  unfold post
  split
  . rfl
  . split <;> rfl

/-- The result of posting at most one event. -/
def postAny (b : Mailbox) : Option IncomingEvent → PostResult × Mailbox
  | none => (.delivered, b)
  | some e => b.post e

@[simp]
theorem capacity_postAny (b : Mailbox) (e : Option IncomingEvent)
    : (b.postAny e).2.capacity = b.capacity := by
  cases e <;> simp [postAny]

@[simp]
theorem hasReader_postAny (b : Mailbox) (e : Option IncomingEvent)
    : (b.postAny e).2.hasReader = b.hasReader := by
  cases e <;> simp [postAny]

@[simp]
theorem hasSender_postAny (b : Mailbox) (e : Option IncomingEvent)
    : (b.postAny e).2.hasSender = b.hasSender := by
  cases e <;> simp [postAny]

theorem pending_postAny (b : Mailbox) (e : Option IncomingEvent)
    : (b.postAny e).2.pending
        =
      if (b.postAny e).1 = .delivered then b.pending ++ e.toList else b.pending := by
  cases e with
  | none => simp [postAny]
  | some e => exact pending_post b e

theorem postAny_eq_delivered {b : Mailbox} {e : Option IncomingEvent}
    (hreader : b.hasReader = true) (hfull : (b.postAny e).1 ≠ .full)
    : (b.postAny e).1 = .delivered := by
  cases e with
  | none => rfl
  | some e =>
    unfold postAny at hfull ⊢
    dsimp at hfull ⊢
    rw [post_eq_full_iff] at hfull
    rw [post_eq_delivered_iff]
    refine ⟨hreader, ?_⟩
    have : ¬ b.capacity ≤ b.pending.length := fun hle => hfull ⟨hreader, hle⟩
    omega

theorem pending_postAny_of_hasReader {b : Mailbox} (h : b.hasReader = false)
    (e : Option IncomingEvent) : (b.postAny e).2.pending = b.pending := by
  cases e with
  | none => rfl
  | some e =>
    unfold postAny post
    simp [h]

end Mailbox

namespace Mailroom

@[simp]
theorem getElem?_closeSender (room : Mailroom) (i j : Nat)
    : (room.closeSender i).boxes[j]?
        =
      if i = j then (room.boxes[j]?).map Mailbox.closeSender else room.boxes[j]? := by
  unfold closeSender
  dsimp
  rw [List.getElem?_modify]
  split
  . rfl
  . simp

@[simp]
theorem getElem?_closeReader (room : Mailroom) (i j : Nat)
    : (room.closeReader i).boxes[j]?
        =
      if i = j then (room.boxes[j]?).map Mailbox.closeReader else room.boxes[j]? := by
  unfold closeReader
  dsimp
  rw [List.getElem?_modify]
  split
  . rfl
  . simp

@[simp]
theorem length_closeSender (room : Mailroom) (i : Nat)
    : (room.closeSender i).boxes.length = room.boxes.length := by
  simp [closeSender]

@[simp]
theorem length_closeReader (room : Mailroom) (i : Nat)
    : (room.closeReader i).boxes.length = room.boxes.length := by
  simp [closeReader]

theorem post_of_getElem? {room : Mailroom} {i : Nat} {b : Mailbox} (h : room.boxes[i]? = some b)
    (e : IncomingEvent)
    : room.post i e = ((b.post e).1, ⟨room.boxes.set i (b.post e).2⟩) := by
  simp [post, h]

theorem post_of_none {room : Mailroom} {i : Nat} (h : room.boxes[i]? = none) (e : IncomingEvent)
    : room.post i e = (.gone, room) := by
  simp [post, h]

@[simp]
theorem length_post (room : Mailroom) (i : Nat) (e : IncomingEvent)
    : (room.post i e).2.boxes.length = room.boxes.length := by
  cases h : room.boxes[i]? with
  | none => rw [post_of_none h]
  | some b => simp [post_of_getElem? h]

theorem getElem?_post_of_ne {room : Mailroom} {i j : Nat} (h : i ≠ j) (e : IncomingEvent)
    : (room.post i e).2.boxes[j]? = room.boxes[j]? := by
  cases hb : room.boxes[i]? with
  | none => rw [post_of_none hb]
  | some b =>
    rw [post_of_getElem? hb]
    exact List.getElem?_set_ne h

theorem getElem?_post_self (room : Mailroom) (i : Nat) (e : IncomingEvent)
    : (room.post i e).2.boxes[i]? = (room.boxes[i]?).map (fun b => (b.post e).2) := by
  cases hb : room.boxes[i]? with
  | none => simp [post_of_none hb, hb]
  | some b =>
    rw [post_of_getElem? hb]
    have := (List.getElem?_eq_some_iff.1 hb).1
    simp [this]

theorem getElem?_take (room : Mailroom) (i n j : Nat)
    : (room.take i n).2.boxes[j]?
        =
      if i = j then (room.boxes[j]?).map (fun b => (b.take n).2) else room.boxes[j]? := by
  unfold take
  split
  . next hnone =>
    split
    . next heq => simp [← heq, hnone]
    . rfl
  . next b hb =>
    have := (List.getElem?_eq_some_iff.1 hb).1
    dsimp
    rw [List.getElem?_set]
    split
    . next heq =>
      rw [← heq, hb]
      simp
    . rfl

theorem take_append_pending (room : Mailroom) (i n : Nat)
    : (room.take i n).1 ++ (room.take i n).2.pending i = room.pending i := by
  unfold pending
  rw [getElem?_take, if_pos rfl]
  unfold take
  cases room.boxes[i]? with
  | none => rfl
  | some b => exact List.take_append_drop n b.pending

theorem pending_take_of_ne (room : Mailroom) {i j : Nat} (h : i ≠ j) (n : Nat)
    : (room.take i n).2.pending j = room.pending j := by
  unfold pending
  rw [getElem?_take, if_neg h]

theorem post_fst (room : Mailroom) (i : Nat) (e : IncomingEvent)
    : (room.post i e).1 = ((room.boxes[i]?).map (fun b => (b.post e).1)).getD .gone := by
  cases hb : room.boxes[i]? with
  | none => simp [post_of_none hb]
  | some b => simp [post_of_getElem? hb]

end Mailroom

namespace Member

/-- A change of a member that neither depends on nor touches any mailbox but its own. -/
structure Confined (f : Member → Mailroom → Member × Mailroom) : Prop where
  length : ∀ m room, (f m room).2.boxes.length = room.boxes.length
  mailbox : ∀ m room, (f m room).1.mailbox = m.mailbox ∨ (f m room).1.mailbox = none
  other : ∀ m room j, m.mailbox ≠ some j → (f m room).2.boxes[j]? = room.boxes[j]?
  own : ∀ m room room', (∀ i, m.mailbox = some i → room.boxes[i]? = room'.boxes[i]?) →
    (f m room).1 = (f m room').1 ∧
      ∀ i, m.mailbox = some i → (f m room).2.boxes[i]? = (f m room').2.boxes[i]?

theorem Confined.of_pure {g : Member → Member} (h : ∀ m, (g m).mailbox = m.mailbox)
    : Confined (fun m room => (g m, room)) where
  length _ _ := rfl
  mailbox m _ := Or.inl (h m)
  other _ _ _ _ := rfl
  own _ _ _ hroom := ⟨rfl, hroom⟩

theorem Confined.comp {f g : Member → Mailroom → Member × Mailroom} (hf : Confined f)
    (hg : Confined g) : Confined (fun m room => g (f m room).1 (f m room).2) where
  length m room := by
    rw [hg.length, hf.length]
  mailbox m room := by
    cases hg.mailbox (f m room).1 (f m room).2 with
    | inl h =>
      rw [h]
      apply hf.mailbox
    | inr h => exact Or.inr h
  other m room j hj := by
    rw [hg.other, hf.other _ _ _ hj]
    cases hf.mailbox m room with
    | inl h => rwa [h]
    | inr h => simp [h]
  own m room room' hroom := by
    have ⟨hmember, hbox⟩ := hf.own m room room' hroom
    have hroom' : ∀ i, (f m room).1.mailbox = some i →
        (f m room).2.boxes[i]? = (f m room').2.boxes[i]? := by
      intro i hi
      apply hbox
      cases hf.mailbox m room with
      | inl h => rwa [← h]
      | inr h => simp [h] at hi
    have ⟨hmember', hbox'⟩ := hg.own _ _ _ hroom'
    rw [← hmember]
    refine ⟨hmember', ?_⟩
    intro i hi
    by_cases hkept : (f m room).1.mailbox = some i
    . exact hbox' i hkept
    . rw [hg.other _ _ _ hkept, hg.other _ _ _ hkept]
      exact hbox i hi

theorem confined_leave : Confined leave where
  length m room := by
    unfold leave closeStream
    cases m.mailbox <;> simp
  mailbox m room := by
    unfold leave closeStream
    cases h : m.mailbox <;> simp [h]
  other m room j hj := by
    unfold leave closeStream
    cases h : m.mailbox with
    | none => rfl
    | some i =>
      have hne : i ≠ j := by
        intro heq
        exact hj (heq ▸ h)
      simp [hne]
  own m room room' hroom := by
    unfold leave closeStream
    cases h : m.mailbox with
    | none => simp
    | some i => simp [hroom i h]

theorem post_of_none {m : Member} (h : m.mailbox = none) (e : IncomingEvent) (room : Mailroom)
    : m.post e room = (false, m, room) := by
  simp [post, h]

theorem post_of_some {m : Member} {i : Nat} (h : m.mailbox = some i) (e : IncomingEvent)
    (room : Mailroom)
    : (m.post e room).2
        =
      if (room.post i e).1 = .full then m.leave (room.post i e).2 else (m, (room.post i e).2) := by
  simp only [post, h]
  generalize room.post i e = r
  rcases r with ⟨r, room'⟩
  cases r <;> simp

theorem confined_post (e : IncomingEvent) : Confined (fun m room => (m.post e room).2) where
  length m room := by
    cases h : m.mailbox with
    | none => rw [post_of_none h]
    | some i =>
      rw [post_of_some h]
      split
      . rw [confined_leave.length, Mailroom.length_post]
      . exact Mailroom.length_post room i e
  mailbox m room := by
    cases h : m.mailbox with
    | none => simp [post_of_none h, h]
    | some i =>
      rw [post_of_some h]
      split
      . rw [← h]
        apply confined_leave.mailbox
      . exact Or.inl h
  other m room j hj := by
    cases h : m.mailbox with
    | none => rw [post_of_none h]
    | some i =>
      have hne : i ≠ j := by
        intro heq
        exact hj (heq ▸ h)
      rw [post_of_some h]
      split
      . rw [confined_leave.other _ _ _ hj, Mailroom.getElem?_post_of_ne hne]
      . exact Mailroom.getElem?_post_of_ne hne e
  own m room room' hroom := by
    cases h : m.mailbox with
    | none => simp [post_of_none h]
    | some i =>
      -- The outcome of posting depends on nothing but the mailbox that is posted to.
      have hfst : (room.post i e).1 = (room'.post i e).1 := by
        rw [Mailroom.post_fst, Mailroom.post_fst, hroom i h]
      have hbox : (room.post i e).2.boxes[i]? = (room'.post i e).2.boxes[i]? := by
        rw [Mailroom.getElem?_post_self, Mailroom.getElem?_post_self, hroom i h]
      rw [post_of_some h, post_of_some h, ← hfst]
      split
      . rw [← h]
        apply confined_leave.own
        intro j hj
        rw [h, Option.some.injEq] at hj
        rw [← hj]
        exact hbox
      . refine ⟨rfl, ?_⟩
        intro j hj
        rw [Option.some.injEq] at hj
        rw [← hj]
        exact hbox

/-- How a member comes out of an operation of its console. -/
inductive Fate where
  | stays
  | plays
  | leaves
deriving DecidableEq

/--
The common form of what console operations do to a member: it may be marked as ready, it may be posted
an event, and then it stays, starts to play or leaves.
-/
def undergo (ready : Bool) (posted : Option IncomingEvent) (fate : Fate) (m : Member)
    (room : Mailroom) : Member × Mailroom :=
  let m := if ready then m.markReady else m
  let r := match posted with
    | none => (m, room)
    | some e => (m.post e room).2
  match fate with
  | .stays => r
  | .plays => (if r.1.status = .done then r.1 else { r.1 with status := .playing }, r.2)
  | .leaves => r.1.leave r.2

@[simp]
theorem mailbox_markReady (m : Member) : m.markReady.mailbox = m.mailbox := by
  unfold markReady
  split <;> rfl

@[simp]
theorem ports_markReady (m : Member) : m.markReady.ports = m.ports := by
  unfold markReady
  split <;> rfl

@[simp]
theorem delay_markReady (m : Member) : m.markReady.delay = m.delay := by
  unfold markReady
  split <;> rfl

theorem confined_undergo (ready : Bool) (posted : Option IncomingEvent) (fate : Fate)
    : Confined (undergo ready posted fate) := by
  have hready : Confined (fun m room => (if ready then m.markReady else m, room)) := by
    apply Confined.of_pure
    intro m
    split <;> simp
  have hposted : Confined (fun m room =>
      match posted with
      | none => (m, room)
      | some e => (m.post e room).2) := by
    cases posted with
    | none => exact Confined.of_pure (fun _ => rfl)
    | some e => exact confined_post e
  have hfate : Confined (fun m room =>
      match fate with
      | .stays => (m, room)
      | .plays => (if m.status = .done then m else { m with status := .playing }, room)
      | .leaves => m.leave room) := by
    cases fate with
    | stays => exact Confined.of_pure (fun _ => rfl)
    | plays =>
      apply Confined.of_pure
      intro m
      split <;> rfl
    | leaves => exact confined_leave
  have := (hready.comp hposted).comp hfate
  cases fate <;> exact this

@[simp]
theorem ports_leave (m : Member) (room : Mailroom) : (m.leave room).1.ports = m.ports := by
  unfold leave closeStream
  cases m.mailbox <;> rfl

@[simp]
theorem delay_leave (m : Member) (room : Mailroom) : (m.leave room).1.delay = m.delay := by
  unfold leave closeStream
  cases m.mailbox <;> rfl

@[simp]
theorem mailbox_leave (m : Member) (room : Mailroom) : (m.leave room).1.mailbox = none := by
  unfold leave closeStream
  cases h : m.mailbox <;> simp [h]

@[simp]
theorem status_leave (m : Member) (room : Mailroom) : (m.leave room).1.status = .done := rfl

theorem post_eq_or_leave (m : Member) (e : IncomingEvent) (room : Mailroom)
    : (m.post e room).2.1 = m ∨ ∃ room', (m.post e room).2.1 = (m.leave room').1 := by
  cases h : m.mailbox with
  | none => simp [post_of_none h]
  | some i =>
    rw [post_of_some h]
    split
    . exact Or.inr ⟨_, rfl⟩
    . exact Or.inl rfl

@[simp]
theorem ports_post (m : Member) (e : IncomingEvent) (room : Mailroom)
    : (m.post e room).2.1.ports = m.ports := by
  rcases post_eq_or_leave m e room with h | ⟨room', h⟩
  . rw [h]
  . rw [h, ports_leave]

@[simp]
theorem delay_post (m : Member) (e : IncomingEvent) (room : Mailroom)
    : (m.post e room).2.1.delay = m.delay := by
  rcases post_eq_or_leave m e room with h | ⟨room', h⟩
  . rw [h]
  . rw [h, delay_leave]

@[simp]
theorem ports_undergo (ready : Bool) (posted : Option IncomingEvent) (fate : Fate) (m : Member)
    (room : Mailroom) : (undergo ready posted fate m room).1.ports = m.ports := by
  unfold undergo
  cases posted <;> cases fate <;> cases ready <;> simp <;> split <;> simp

@[simp]
theorem delay_undergo (ready : Bool) (posted : Option IncomingEvent) (fate : Fate) (m : Member)
    (room : Mailroom) : (undergo ready posted fate m room).1.delay = m.delay := by
  unfold undergo
  cases posted <;> cases fate <;> cases ready <;> simp <;> split <;> simp

def keepsMailbox (b : Mailbox) (posted : Option IncomingEvent) (fate : Fate) : Bool :=
  (b.postAny posted).1 ≠ .full && fate ≠ .leaves

theorem keepsMailbox_iff {b : Mailbox} {posted : Option IncomingEvent} {fate : Fate}
    : keepsMailbox b posted fate = true ↔ (b.postAny posted).1 ≠ .full ∧ fate ≠ .leaves := by
  simp [keepsMailbox]

theorem leave_of_some {m : Member} {i : Nat} (h : m.mailbox = some i) (room : Mailroom)
    : m.leave room = ({ m with mailbox := none, status := .done }, room.closeSender i) := by
  simp [leave, closeStream, h]

theorem leave_of_none {m : Member} (h : m.mailbox = none) (room : Mailroom)
    : m.leave room = ({ m with status := .done }, room) := by
  simp [leave, closeStream, h]

theorem post_held {m : Member} {i : Nat} (hm : m.mailbox = some i) {room : Mailroom} {b : Mailbox}
    (hb : room.boxes[i]? = some b) (e : IncomingEvent)
    : (m.post e room).2
        =
      if (b.post e).1 = .full then m.leave (room.post i e).2 else (m, (room.post i e).2) := by
  rw [post_of_some hm, Mailroom.post_of_getElem? hb]

theorem undergo_mailbox {m : Member} {i : Nat} (hm : m.mailbox = some i) {room : Mailroom}
    {b : Mailbox} (hb : room.boxes[i]? = some b) (ready : Bool) (posted : Option IncomingEvent)
    (fate : Fate)
    : (undergo ready posted fate m room).1.mailbox
        =
      if keepsMailbox b posted fate then some i else none := by
  have hm' : (if ready then m.markReady else m).mailbox = some i := by
    split <;> simp [hm]
  unfold undergo
  generalize (if ready then m.markReady else m) = m' at hm'
  cases posted with
  | none =>
    cases fate <;> simp [keepsMailbox, Mailbox.postAny, hm']
    split <;> simp [hm']
  | some e =>
    simp only [post_held hm' hb, keepsMailbox, Mailbox.postAny]
    by_cases hfull : (b.post e).1 = .full
    . cases fate <;> simp [hfull]
    . cases fate with
      | stays => simp [hfull, hm']
      | plays =>
        simp only [hfull, ↓reduceIte]
        split <;> simp [hm', hfull]
      | leaves => simp [hfull]

theorem undergo_box {m : Member} {i : Nat} (hm : m.mailbox = some i) {room : Mailroom}
    {b : Mailbox} (hb : room.boxes[i]? = some b) (ready : Bool) (posted : Option IncomingEvent)
    (fate : Fate)
    : (undergo ready posted fate m room).2.boxes[i]?
        =
      some (if keepsMailbox b posted fate then (b.postAny posted).2
        else (b.postAny posted).2.closeSender) := by
  have hm' : (if ready then m.markReady else m).mailbox = some i := by
    split <;> simp [hm]
  unfold undergo
  generalize (if ready then m.markReady else m) = m' at hm'
  cases posted with
  | none => cases fate <;> simp [keepsMailbox, Mailbox.postAny, hb, leave_of_some hm']
  | some e =>
    have hbox := Mailroom.getElem?_post_self room i e
    rw [hb, Option.map_some] at hbox
    simp only [post_held hm' hb, keepsMailbox, Mailbox.postAny]
    by_cases hfull : (b.post e).1 = .full
    . cases fate <;> simp [hfull, leave_of_some hm', leave_of_none, hbox]
    . cases fate <;> simp [hfull, leave_of_some hm', hbox]

end Member
end PadRelay
