import PadRelay.Proofs.Console.Members

/-!
This module contains what the operations of a console do to each of its members, and to whom they
address which events.
-/

namespace PadRelay
namespace Console

open Member (Confined Fate undergo confined_undergo confined_post confined_leave)

/--
The event that handling an event `e` of member `sender` addresses to member `id`: the keys go to all
others, and what is wrong with them to the sender.
-/
def addressed (c : Console) (sender : ClientId) (e : OutgoingEvent) (id : ClientId) :
    Option IncomingEvent :=
  match c.members.get? sender with
  | none => none
  | some m =>
    if e.keys = [] then none
    else
      match m.firstRefusal? c.id e.keys with
      | some r => if id = sender then some (refusalEvent r) else none
      | none => if id = sender then none else some { keys := e.keys }

theorem addressed_eq_some {c : Console} {sender id : ClientId} {e : OutgoingEvent}
    {ev : IncomingEvent} (h : c.addressed sender e id = some ev)
    : e.keys ≠ [] ∧
        ((ev.start = none ∧ ev.keys = []) ∨ (id ≠ sender ∧ ev = { keys := e.keys })) := by
  unfold addressed at h
  split at h
  . simp at h
  . split at h
    . simp at h
    . next hkeys =>
      refine ⟨hkeys, ?_⟩
      split at h
      . split at h
        . rw [Option.some.injEq] at h
          rw [← h]
          exact Or.inl ⟨rfl, rfl⟩
        . simp at h
      . split at h
        . simp at h
        . next hne =>
          rw [Option.some.injEq] at h
          exact Or.inr ⟨hne, h.symm⟩

theorem firstRefusal?_markReady (m : Member) (id : ConsoleId) (keys : List KeyState)
    : m.markReady.firstRefusal? id keys = m.firstRefusal? id keys := by
  induction keys with
  | nil => rfl
  | cons key rest ih => simp [Member.firstRefusal?, Member.owns, ih]

theorem separate_insert {c : Console} (h : c.Separate) {id : ClientId} {m m' : Member}
    (hm : c.members.get? id = some m) (hbox : m'.mailbox = m.mailbox)
    : Separate { c with members := c.members.insert id m' } := by
  have hback : ∀ {id' n i}, (c.members.insert id m').get? id' = some n → n.mailbox = some i →
      ∃ n', c.members.get? id' = some n' ∧ n'.mailbox = some i := by
    intro id' n i hn hi
    rw [SortedMap.get?_insert] at hn
    split at hn
    . next heq =>
      rw [Option.some.injEq] at hn
      subst hn
      rw [heq]
      exact ⟨m, hm, hbox ▸ hi⟩
    . exact ⟨n, hn, hi⟩
  intro id₁ id₂ n₁ n₂ i hn₁ hn₂ hi₁ hi₂
  rcases hback hn₁ hi₁ with ⟨_, hn₁, hi₁⟩
  rcases hback hn₂ hi₂ with ⟨_, hn₂, hi₂⟩
  exact h hn₁ hn₂ hi₁ hi₂

theorem Serves.of_insert {f : ClientId → Member → Mailroom → Member × Mailroom} {c : Console}
    {room : Mailroom} {r : Console × Mailroom} {id : ClientId} {m m' : Member}
    (hm : c.members.get? id = some m) (hbox : m'.mailbox = m.mailbox)
    (h : Serves f { c with members := c.members.insert id m' } room r)
    : c.Serves (fun id' n room => f id' (if id' = id then m' else n) room) room r where
  member id' := by
    rw [h.member]
    dsimp
    rw [SortedMap.get?_insert]
    split
    . next heq => simp [heq, hm]
    . next hne => simp
  box id' n i hn hi := by
    by_cases heq : id' = id
    . rw [heq, hm, Option.some.injEq] at hn
      rw [h.box id' m' i (by simp [heq]) (by rw [hbox, hn, hi])]
      simp [heq]
    . rw [h.box id' n i (by rw [SortedMap.get?_insert_of_ne _ heq]; exact hn) hi]
      simp [heq]
  other j hj := by
    apply h.other
    intro id' n hn
    dsimp at hn
    rw [SortedMap.get?_insert] at hn
    split at hn
    . next heq =>
      rw [Option.some.injEq] at hn
      rw [← hn, hbox]
      exact hj id m hm
    . exact hj id' n hn
  length := h.length

theorem serves_nothing (c : Console) (room : Mailroom)
    : c.Serves (fun _ m room => (m, room)) room (c, room) :=
  ⟨fun id => by simp, fun _ _ _ _ _ => rfl, fun _ _ => rfl, rfl⟩

/-- The treatment of member `id` when an event of member `sender` is handled. -/
def handling (c : Console) (sender : ClientId) (e : OutgoingEvent) (id : ClientId) :
    Member → Mailroom → Member × Mailroom :=
  undergo (id = sender && e.ready.isSome) (c.addressed sender e id) .stays

theorem confined_handling (c : Console) (sender : ClientId) (e : OutgoingEvent) (id : ClientId)
    : Confined (c.handling sender e id) := by
  apply confined_undergo

theorem serves_handle {c : Console} (h : c.Separate) (sender : ClientId) (e : OutgoingEvent)
    (room : Mailroom) : c.Serves (c.handling sender e) room (c.handle sender e room) := by
  unfold handle
  split
  . next hnone =>
    apply (serves_nothing c room).congr
    intro id m hm
    have : id ≠ sender := by
      intro heq
      rw [heq, hnone] at hm
      simp at hm
    simp [handling, addressed, hnone, undergo, this]
  . next m hsome =>
    dsimp
    have hbox : (if e.ready.isSome = true then m.markReady else m).mailbox = m.mailbox := by
      split <;> simp
    -- Being marked as ready changes neither the mailbox nor the ports, so it may come first.
    have hrefusal :
        (if e.ready.isSome = true then m.markReady else m).firstRefusal? c.id e.keys
          =
        m.firstRefusal? c.id e.keys := by
      split
      . apply firstRefusal?_markReady
      . rfl
    have hsep := separate_insert h hsome hbox
    rw [hrefusal]
    have hadd : ∀ id, c.addressed sender e id
        = if e.keys = [] then none else
          match m.firstRefusal? c.id e.keys with
          | some r => if id = sender then some (refusalEvent r) else none
          | none => if id = sender then none else some { keys := e.keys } := by
      intro id
      simp [addressed, hsome]
    split
    . next hkeys =>
      apply ((serves_nothing _ room).of_insert hsome hbox).congr
      intro id n hn
      by_cases heq : id = sender
      . rw [heq, hsome, Option.some.injEq] at hn
        subst hn
        simp [handling, hadd, hkeys, undergo, heq]
      . simp [handling, hadd, hkeys, undergo, heq]
    . next hkeys =>
      split
      . next r hr =>
        apply ((serves_updateMember (confined_post _) hsep sender room).of_insert hsome hbox).congr
        intro id n hn
        by_cases heq : id = sender
        . rw [heq, hsome, Option.some.injEq] at hn
          subst hn
          simp [handling, hadd, hkeys, hr, undergo, heq]
        . simp [handling, hadd, hkeys, hr, undergo, heq]
      . next hr =>
        have hconf : ∀ id, Confined fun m room =>
            if id = sender then (m, room) else (m.post { keys := e.keys } room).2 := by
          intro id
          split
          . exact Confined.of_pure fun _ => rfl
          . apply confined_post
        apply ((serves_updateMembers hconf hsep room).of_insert hsome hbox).congr
        intro id n hn
        by_cases heq : id = sender
        . rw [heq, hsome, Option.some.injEq] at hn
          subst hn
          simp [handling, hadd, hkeys, hr, undergo, heq]
        . simp [handling, hadd, hkeys, hr, undergo, heq]

theorem serves_broadcastStart {c : Console} (h : c.Separate) (room : Mailroom)
    : c.Serves (fun _ => undergo false (some c.startEvent) .plays) room (c.broadcastStart room) := by
  have hconf : ∀ id : ClientId, Confined (undergo false (some c.startEvent) .plays) := by
    intro
    apply confined_undergo
  exact (serves_updateMembers hconf h room).of_members rfl rfl

theorem serves_stop {c : Console} (h : c.Separate) (room : Mailroom)
    : c.Serves (fun _ => undergo false (some c.stopEvent) .leaves) room (c.stop room) := by
  have hconf : ∀ id : ClientId, Confined (undergo false (some c.stopEvent) .leaves) := by
    intro
    apply confined_undergo
  exact (serves_updateMembers hconf h room).of_members rfl rfl

/-- The treatment of member `id` when the stream of member `leaver` ends. -/
def closing (leaver id : ClientId) : Member → Mailroom → Member × Mailroom :=
  undergo false none (if id = leaver then .leaves else .stays)

theorem confined_closing (leaver id : ClientId) : Confined (closing leaver id) := by
  apply confined_undergo

theorem serves_streamClosed {c : Console} (h : c.Separate) (leaver : ClientId) (room : Mailroom)
    : c.Serves (closing leaver) room (c.streamClosed leaver room) := by
  have hs := serves_updateMember confined_leave h leaver room
  have hs : c.Serves (closing leaver) room (c.updateMember leaver Member.leave room) := by
    apply hs.congr
    intro id m _
    by_cases heq : id = leaver <;> simp [closing, undergo, heq]
  unfold streamClosed
  dsimp
  split
  . exact hs.of_members rfl rfl
  . exact hs

theorem id_updateMember (c : Console) (id : ClientId) (f : Member → Mailroom → Member × Mailroom)
    (room : Mailroom) : (c.updateMember id f room).1.id = c.id := by
  unfold updateMember
  split <;> rfl

theorem status_updateMember (c : Console) (id : ClientId)
    (f : Member → Mailroom → Member × Mailroom) (room : Mailroom)
    : (c.updateMember id f room).1.status = c.status := by
  unfold updateMember
  split <;> rfl

@[simp]
theorem id_handle (c : Console) (sender : ClientId) (e : OutgoingEvent) (room : Mailroom)
    : (c.handle sender e room).1.id = c.id := by
  unfold handle
  split
  . rfl
  . dsimp
    split
    . rfl
    . split
      . rw [id_updateMember]
      . rfl

@[simp]
theorem status_handle (c : Console) (sender : ClientId) (e : OutgoingEvent) (room : Mailroom)
    : (c.handle sender e room).1.status = c.status := by
  unfold handle
  split
  . rfl
  . dsimp
    split
    . rfl
    . split
      . rw [status_updateMember]
      . rfl

@[simp]
theorem id_broadcastStart (c : Console) (room : Mailroom) : (c.broadcastStart room).1.id = c.id :=
  rfl

@[simp]
theorem id_stop (c : Console) (room : Mailroom) : (c.stop room).1.id = c.id := rfl

@[simp]
theorem id_streamClosed (c : Console) (leaver : ClientId) (room : Mailroom)
    : (c.streamClosed leaver room).1.id = c.id := by
  unfold streamClosed
  dsimp
  split
  . exact id_updateMember c leaver Member.leave room
  . exact id_updateMember c leaver Member.leave room

end Console
end PadRelay
