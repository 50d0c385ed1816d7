import PadRelay.Proofs.Server.Traffic

/-!
This module contains what the server does with keys that are in order when everybody keeps up: it appends
them to the mailboxes of all others, and that is all.
-/

namespace PadRelay
namespace Server

def append (b : Mailbox) (e : IncomingEvent) : Mailbox :=
  { b with pending := b.pending ++ [e] }

theorem post_of_room {m : Member} {i : Nat} (hm : m.mailbox = some i) {room : Mailroom}
    {b : Mailbox} (hb : room.boxes[i]? = some b) (hreader : b.hasReader = true)
    (hroom : b.pending.length < b.capacity) (e : IncomingEvent)
    : (m.post e room).2 = (m, (room.post i e).2) ∧
        (room.post i e).2.boxes[i]? = some (append b e) := by
  have hpost : b.post e = (.delivered, append b e) := by
    simp [Mailbox.post, hreader, hroom, append]
  constructor
  . rw [Member.post_held hm hb, hpost]
    rfl
  . rw [Mailroom.getElem?_post_self, hb, Option.map_some, hpost]

theorem receive_of_holds {s : Server} (h : s.Consistent) {k : Nat} {c : Console}
    (hc : s.lobby.console? k = some c) {id : ClientId} {m : Member}
    (hm : c.members.get? id = some m) {i : Nat} (hi : m.mailbox = some i) (e : OutgoingEvent)
    : s.receive i e = s.update k (c.handle id e s.room) := by
  rcases h.held k id i ⟨c, m, hc, hm, hi⟩ with ⟨stream, hstream, hbinding, hopen⟩
  unfold receive
  rw [hstream]
  dsimp
  rw [hopen, if_neg (by simp), hbinding]
  dsimp
  unfold dispatch
  dsimp
  rw [hc]

/-- What the server has done after it relayed keys of client `id` of the console at position `k`. -/
structure Relays (s s' : Server) (k : Nat) (c : Console) (id : ClientId) (keys : List KeyState) :
    Prop where
  console : ∃ c', s'.lobby.console? k = some c' ∧ c'.members = c.members ∧ c'.id = c.id
  sender : ∀ m i, c.members.get? id = some m → m.mailbox = some i →
    s'.room.boxes[i]? = s.room.boxes[i]?
  other : ∀ id' m i b, id' ≠ id → c.members.get? id' = some m → m.mailbox = some i →
    s.room.boxes[i]? = some b → s'.room.boxes[i]? = some (append b { keys := keys })

theorem relays_receive {s : Server} (h : s.Consistent) {k : Nat} {c : Console}
    (hc : s.lobby.console? k = some c) {id : ClientId} {m : Member}
    (hm : c.members.get? id = some m) {i : Nat} (hi : m.mailbox = some i) {e : OutgoingEvent}
    (hready : e.ready = none) (hkeys : e.keys ≠ []) (hok : m.firstRefusal? c.id e.keys = none)
    (hroom : ∀ id' m' j, id' ≠ id → c.members.get? id' = some m' → m'.mailbox = some j →
      ∃ b, s.room.boxes[j]? = some b ∧ b.hasReader = true ∧ b.pending.length < b.capacity)
    : s.Relays (s.receive i e) k c id e.keys := by
  have hs := Console.serves_handle (h.separate hc) id e s.room
  have hsender : ∀ m room, c.handling id e id m room = (m, room) := by
    intro m' room
    simp [Console.handling, Console.addressed, hm, hkeys, hok, hready, Member.undergo]
  have hother : ∀ id', id' ≠ id → ∀ m' room, c.handling id e id' m' room
      = (m'.post { keys := e.keys } room).2 := by
    intro id' hne m' room
    simp [Console.handling, Console.addressed, hm, hkeys, hok, hne, Member.undergo]
  have hstays : ∀ id' m', c.members.get? id' = some m' →
      (c.handling id e id' m' s.room).1 = m' := by
    intro id' m' hm'
    by_cases heq : id' = id
    . rw [heq, hsender]
    . rw [hother id' heq]
      cases hj : m'.mailbox with
      | none => rw [Member.post_of_none hj]
      | some j =>
        rcases hroom id' m' j heq hm' hj with ⟨b, hb, hreader, hlt⟩
        rw [(post_of_room hj hb hreader hlt _).1]
  rw [receive_of_holds h hc hm hi]
  constructor
  . refine ⟨_, Lobby.console?_set_self hc _, ?_, Console.id_handle _ _ _ _⟩
    apply SortedMap.ext_get?
    intro id'
    rw [hs.member]
    cases hm' : c.members.get? id' with
    | none => rfl
    | some m' => rw [Option.map_some, hstays id' m' hm']
  . intro m' j hm' hj
    apply (hs.box id m' j hm' hj).trans
    rw [hsender]
  . intro id' m' j b hne hm' hj hb
    rcases hroom id' m' j hne hm' hj with ⟨b', hb', hreader, hlt⟩
    rw [hb, Option.some.injEq] at hb'
    subst hb'
    apply (hs.box id' m' j hm' hj).trans
    rw [hother id' hne, (post_of_room hj hb hreader hlt _).1]
    exact (post_of_room hj hb hreader hlt _).2

end Server
end PadRelay
