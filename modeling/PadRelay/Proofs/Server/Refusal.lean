import PadRelay.Proofs.Server.Relay

/-!
This module contains what the server does with keys that are not in order: it answers them as long as
there is room for the answer, and disconnects the client that sent them when there is none.
-/

namespace PadRelay
namespace Console

theorem handle_eq_members (c : Console) (id : ClientId) (e : OutgoingEvent) (room : Mailroom)
    : (c.handle id e room).1 = { c with members := (c.handle id e room).1.members } := by
  unfold handle
  split
  . rfl
  . dsimp
    split
    . rfl
    . split
      . unfold updateMember
        split <;> rfl
      . rfl

end Console

namespace Server

/-- The client that holds the mailbox of stream `i` sends keys that the server refuses. -/
structure Refuses (s : Server) (k : Nat) (c : Console) (id : ClientId) (m : Member) (i : Nat)
    (e : OutgoingEvent) (r : InvalidData) : Prop where
  consistent : s.Consistent
  console : s.lobby.console? k = some c
  member : c.members.get? id = some m
  mailbox : m.mailbox = some i
  ready : e.ready = none
  keys : e.keys ≠ []
  refusal : m.firstRefusal? c.id e.keys = some r

section Refuses

variable {s : Server} {k : Nat} {c : Console} {id : ClientId} {m : Member} {i : Nat}
variable {e : OutgoingEvent} {r : InvalidData} {b : Mailbox}

theorem Refuses.handling (h : s.Refuses k c id m i e r)
    : (∀ m' room, c.handling id e id m' room = (m'.post (refusalEvent r) room).2) ∧
        ∀ id', id' ≠ id → ∀ m' room, c.handling id e id' m' room = (m', room) := by
  constructor
  . intro m' room
    simp [Console.handling, Console.addressed, h.member, h.keys, h.refusal, h.ready, Member.undergo]
  . intro id' hne m' room
    simp [Console.handling, Console.addressed, h.member, h.keys, h.refusal, hne, Member.undergo]

theorem Refuses.answer (h : s.Refuses k c id m i e r) (hb : s.room.boxes[i]? = some b)
    (hreader : b.hasReader = true) (hroom : b.pending.length < b.capacity)
    : (s.receive i e).Refuses k c id m i e r ∧
        (s.receive i e).room.boxes[i]? = some (append b (refusalEvent r)) := by
  have hs := Console.serves_handle (h.consistent.separate h.console) id e s.room
  have hpost := post_of_room h.mailbox hb hreader hroom (refusalEvent r)
  have hmembers : (c.handle id e s.room).1.members = c.members := by
    apply SortedMap.ext_get?
    intro id'
    rw [hs.member]
    cases hm' : c.members.get? id' with
    | none => rfl
    | some m' =>
      rw [Option.map_some]
      by_cases heq : id' = id
      . rw [heq, h.member, Option.some.injEq] at hm'
        rw [heq, h.handling.1, ← hm', hpost.1]
      . rw [h.handling.2 id' heq]
  have hsame : (c.handle id e s.room).1 = c := by
    rw [Console.handle_eq_members, hmembers]
  rw [receive_of_holds h.consistent h.console h.member h.mailbox]
  refine ⟨⟨?_, ?_, h.member, h.mailbox, h.ready, h.keys, h.refusal⟩, ?_⟩
  . rw [← receive_of_holds h.consistent h.console h.member h.mailbox]
    exact consistent_step h.consistent (.receive i e)
  . apply (Lobby.console?_set_self h.console _).trans
    rw [hsame]
  . apply (hs.box id m i h.member h.mailbox).trans
    rw [h.handling.1, hpost.1]
    exact hpost.2

theorem Refuses.disconnect (h : s.Refuses k c id m i e r) (hb : s.room.boxes[i]? = some b)
    (hreader : b.hasReader = true) (hfull : b.capacity ≤ b.pending.length)
    : ∃ c', (s.receive i e).lobby.console? k = some c' ∧ c'.status = c.status ∧
        (∀ id', id' ≠ id → c'.members.get? id' = c.members.get? id') ∧
        c'.members.get? id = some { m with mailbox := none, status := .done } := by
  have hs := Console.serves_handle (h.consistent.separate h.console) id e s.room
  have hpost : (m.post (refusalEvent r) s.room).2.1 = { m with mailbox := none, status := .done } := by
    rw [Member.post_held h.mailbox hb, if_pos, Member.leave_of_some h.mailbox]
    rw [Mailbox.post_eq_full_iff]
    exact ⟨hreader, hfull⟩
  rw [receive_of_holds h.consistent h.console h.member h.mailbox]
  refine ⟨_, Lobby.console?_set_self h.console _, ?_, ?_, ?_⟩
  . apply Console.status_handle
  . intro id' hne
    rw [hs.member]
    cases c.members.get? id' with
    | none => rfl
    | some m' => rw [Option.map_some, h.handling.2 id' hne]
  . rw [hs.member, h.member, Option.map_some, h.handling.1, hpost]

theorem Refuses.answers (h : s.Refuses k c id m i e r) (hb : s.room.boxes[i]? = some b)
    (hreader : b.hasReader = true) {n : Nat} (hroom : b.pending.length + n ≤ b.capacity)
    : (s.run (List.replicate n (.receive i e))).Refuses k c id m i e r ∧
        ∃ b', (s.run (List.replicate n (.receive i e))).room.boxes[i]? = some b' ∧
          b'.hasReader = true ∧ b'.capacity = b.capacity ∧
          b'.pending.length = b.pending.length + n := by
  induction n generalizing s b with
  | zero => exact ⟨h, b, hb, hreader, rfl, rfl⟩
  | succ n ih =>
    have hanswer := h.answer hb hreader (by omega)
    have hlen : (append b (refusalEvent r)).pending.length = b.pending.length + 1 := by
      simp [append]
    have hcap : (append b (refusalEvent r)).capacity = b.capacity := rfl
    rcases ih hanswer.1 hanswer.2 hreader (by omega) with ⟨hrun, b', hb', hreader', hcap', hlen'⟩
    exact ⟨hrun, b', hb', hreader', by rw [hcap', hcap], by omega⟩

/-- A client that collects nothing and goes on sending keys that are refused is disconnected. -/
theorem Refuses.flood (h : s.Refuses k c id m i e r) (hb : s.room.boxes[i]? = some b)
    (hreader : b.hasReader = true) {n : Nat} (hn : b.pending.length + n = b.capacity)
    : ∃ c', (s.run (List.replicate (n + 1) (.receive i e))).lobby.console? k = some c' ∧
        c'.status = c.status ∧
        (∀ id', id' ≠ id → c'.members.get? id' = c.members.get? id') ∧
        c'.members.get? id = some { m with mailbox := none, status := .done } := by
  rcases h.answers hb hreader (Nat.le_of_eq hn) with ⟨hrun, b', hb', hreader', hcap, hlen⟩
  rw [List.replicate_succ', run_append]
  exact hrun.disconnect hb' hreader' (by omega)

end Refuses

end Server
end PadRelay
