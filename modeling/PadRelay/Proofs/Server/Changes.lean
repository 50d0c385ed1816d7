import PadRelay.Proofs.Console.Ports
import PadRelay.Proofs.Server.Bindings

/-!
This module contains what acts do to the consoles of a server. An act changes at most one console, and
there are six ways in which it can do so. What all consoles keep can be shown by going through them.
-/

namespace PadRelay
namespace Lobby

theorem console?_length (l : Lobby) : l.console? l.consoles.length = none := by
  simp [console?]

end Lobby

namespace Server

/-- The ways in which an act changes the console `c` at position `k`. -/
inductive Changes (s : Server) (k : Nat) (c : Console) : Act → Console → Prop
  | plug {ports : PortSet} {delay : Int32} {requested : List Port} {romHash : String} :
    c.status = .created → c.Grantable ports →
    Changes s k c (.plug k delay requested romHash)
      { c with members := c.members.insert ⟨s.lobby.clientIds.next⟩ { ports, delay } }
  | start :
    c.status = .created → c.allReady = true →
    Changes s k c (.start k) (c.broadcastStart s.room).1
  | stop : Changes s k c (.stop k) (c.stop s.room).1
  | bind {i : Nat} {ready : ClientReady} {m : Member} {box : Nat} :
    s.lobby.lookup? ⟨ready.consoleId⟩ = some (k, c) →
    c.members.get? ⟨ready.clientId⟩ = some m → m.mailbox = none →
    Changes s k c (.bind i ready)
      { c with members := c.members.insert ⟨ready.clientId⟩ { m with mailbox := some box } }
  | handle {i : Nat} {e : OutgoingEvent} {id : ClientId} :
    s.boundTo i = some ⟨k, id⟩ → Changes s k c (.handle i e) (c.handle id e s.room).1
  | close {i : Nat} {id : ClientId} :
    s.boundTo i = some ⟨k, id⟩ → Changes s k c (.close i) (c.streamClosed id s.room).1

def Act.isPlug : Act → Bool
  | .plug _ _ _ _ => true
  | _ => false

/--
The consoles of `s'` are those of `s`, of which the act changed at most one, or those of `s` and a new
one. Only a request for ports draws an identifier of a client.
-/
structure Alters (s s' : Server) (a : Act) : Prop where
  consoles : (∀ j, s'.lobby.console? j = s.lobby.console? j) ∨
    (∃ k c c', s.lobby.console? k = some c ∧ s.Changes k c a c' ∧
      ∀ j, s'.lobby.console? j = if j = k then some c' else s.lobby.console? j) ∨
    ∃ id title romName romHash, ∀ j, s'.lobby.console? j
      = if j = s.lobby.consoles.length then some { id, title, romName, romHash }
        else s.lobby.console? j
  clientIds : a.isPlug = false → s'.lobby.clientIds = s.lobby.clientIds

theorem alters_of_lobby {s s' : Server} (h : s'.lobby = s.lobby) (a : Act) : s.Alters s' a where
  consoles := by
    left
    intro j
    rw [h]
  clientIds _ := by rw [h]

theorem alters_of_set {s s' : Server} {a : Act} {k : Nat} {c c' : Console}
    (hc : s.lobby.console? k = some c) (hchanges : s.Changes k c a c')
    (hs' : ∀ j, s'.lobby.console? j = (s.lobby.set k c').console? j)
    (hids : a.isPlug = false → s'.lobby.clientIds = s.lobby.clientIds) : s.Alters s' a where
  consoles := by
    refine Or.inr (Or.inl ⟨k, c, c', hc, hchanges, ?_⟩)
    intro j
    rw [hs', Lobby.console?_set]
    by_cases heq : k = j
    . simp [← heq, hc]
    . have : j ≠ k := fun h => heq h.symm
      simp [heq, this]
  clientIds := hids

theorem alters_create (s : Server) (title romName romHash : String)
    : s.Alters (s.perform (.create title romName romHash)) (.create title romName romHash) where
  consoles := by
    rcases Lobby.console?_create s.lobby title romName romHash with hsame | ⟨id, hnew⟩
    . exact Or.inl hsame
    . exact Or.inr (Or.inr ⟨id, title, romName, romHash, hnew⟩)
  clientIds _ := by
    unfold perform Lobby.create
    dsimp
    split <;> rfl

theorem alters_plug (s : Server) (k : Nat) (delay : Int32) (requested : List Port)
    (romHash : String)
    : s.Alters (s.perform (.plug k delay requested romHash)) (.plug k delay requested romHash) := by
  cases hc : s.lobby.console? k with
  | none =>
    apply alters_of_lobby
    simp only [perform, hc]
  | some c =>
    rw [perform_plug hc]
    split
    . apply alters_of_lobby
      rfl
    . next p hplug =>
      rcases Console.plug_eq_ok hplug with ⟨hstatus, hrequests, _, rfl, hall, rfl⟩
      apply alters_of_set hc (.plug hstatus (Console.grantable_of_plug hrequests hall))
      . exact fun _ => rfl
      . simp [Act.isPlug]

theorem alters_start (s : Server) (k : Nat)
    : s.Alters (s.perform (.start k)) (.start k) := by
  unfold perform
  dsimp
  split
  . apply alters_of_lobby
    rfl
  . next c hc =>
    split
    . apply alters_of_lobby
      rfl
    . next r hr =>
      rcases start_eq_ok hr with ⟨hstatus, hready, rfl⟩
      apply alters_of_set hc (.start hstatus hready)
      . exact fun _ => rfl
      . exact fun _ => rfl

theorem alters_bind (s : Server) (i : Nat) (ready : ClientReady)
    : s.Alters (s.perform (.bind i ready)) (.bind i ready) := by
  unfold perform
  dsimp
  split
  . apply alters_of_lobby
    rfl
  . split
    . apply alters_of_lobby
      rfl
    . next b _ hbind =>
      rcases b with ⟨k, id⟩
      rcases bind?_eq_ok hbind with ⟨c, m, box, hlookup, rfl, hm, hnone, _, rfl⟩
      apply alters_of_set (Lobby.lookup?_eq_some hlookup).1 (.bind hlookup hm hnone)
      . exact fun _ => rfl
      . exact fun _ => rfl

theorem alters_handle (s : Server) (i : Nat) (e : OutgoingEvent)
    : s.Alters (s.perform (.handle i e)) (.handle i e) := by
  unfold perform
  dsimp
  split
  . apply alters_of_lobby
    rfl
  . next b hb =>
    unfold dispatch
    split
    . apply alters_of_lobby
      rfl
    . next c hc =>
      apply alters_of_set hc (.handle hb)
      . exact fun _ => rfl
      . exact fun _ => rfl

theorem alters_close (s : Server) (i : Nat) : s.Alters (s.perform (.close i)) (.close i) := by
  unfold perform closeStream
  dsimp
  split
  . apply alters_of_lobby
    rfl
  . next stream hstream =>
    split
    . next b hb =>
      split
      . apply alters_of_lobby
        rfl
      . next c hc =>
        apply alters_of_set hc (.close (boundTo_eq_some_iff.2 ⟨stream, hstream, hb⟩))
        . exact fun _ => rfl
        . exact fun _ => rfl
    . split
      . apply alters_of_lobby
        rfl
      . apply alters_of_lobby
        rfl

theorem alters_perform (s : Server) (a : Act) : s.Alters (s.perform a) a := by
  cases a with
  | create title romName romHash => exact alters_create s title romName romHash
  | plug k delay requested romHash => exact alters_plug s k delay requested romHash
  | start k => exact alters_start s k
  | stop k =>
    unfold perform
    dsimp
    split
    . apply alters_of_lobby
      rfl
    . next c hc =>
      apply alters_of_set hc .stop
      . exact fun _ => rfl
      . exact fun _ => rfl
  | reply i consoleId status =>
    apply alters_of_lobby
    unfold perform
    dsimp
    split
    . rfl
    . unfold replyAnonymous
      split <;> rfl
  | bind i ready => exact alters_bind s i ready
  | handle i e => exact alters_handle s i e
  | close i => exact alters_close s i
  | prune => exact ⟨Or.inl (Lobby.console?_removeFinished s.lobby), fun _ => rfl⟩
  | _ =>
    apply alters_of_lobby
    rfl

theorem Changes.id_eq {s : Server} {k : Nat} {c c' : Console} {a : Act} (h : s.Changes k c a c')
    : c'.id = c.id := by
  cases h with
  | handle => apply Console.id_handle
  | close => apply Console.id_streamClosed
  | _ => rfl

theorem Changes.created {s : Server} {k : Nat} {c c' : Console} {a : Act} (h : s.Changes k c a c')
    (hcreated : c'.status = .created) : c.status = .created := by
  cases h with
  | plug hstatus => exact hstatus
  | start hstatus => exact hstatus
  | stop => simp [Console.stop] at hcreated
  | bind => exact hcreated
  | handle => rwa [Console.status_handle] at hcreated
  | close =>
    unfold Console.streamClosed at hcreated
    dsimp at hcreated
    split at hcreated
    . simp at hcreated
    . rwa [Console.status_updateMember] at hcreated

theorem console?_perform_of_some {s : Server} {k : Nat} {c : Console}
    (hc : s.lobby.console? k = some c) (a : Act)
    : ∃ c', (s.perform a).lobby.console? k = some c' ∧ (c' = c ∨ s.Changes k c a c') := by
  rcases (alters_perform s a).consoles with hsame | ⟨j, cj, c', hcj, hchanges, hset⟩ |
    ⟨_, _, _, _, hnew⟩
  . exact ⟨c, by rw [hsame, hc], Or.inl rfl⟩
  . by_cases heq : k = j
    . rw [← heq, hc, Option.some.injEq] at hcj
      subst hcj heq
      exact ⟨c', by rw [hset, if_pos rfl], Or.inr hchanges⟩
    . exact ⟨c, by rw [hset, if_neg heq, hc], Or.inl rfl⟩
  . refine ⟨c, ?_, Or.inl rfl⟩
    rw [hnew, if_neg, hc]
    intro heq
    rw [heq, Lobby.console?_length] at hc
    simp at hc

theorem console?_perform_of_started {s : Server} {k : Nat} {c : Console}
    (hc : s.lobby.console? k = some c) (hstarted : c.status ≠ .created) (a : Act)
    : ∃ c', (s.perform a).lobby.console? k = some c' ∧ c'.status ≠ .created := by
  rcases console?_perform_of_some hc a with ⟨c', hc', rfl | hchanges⟩
  . exact ⟨c', hc', hstarted⟩
  . exact ⟨c', hc', fun hcreated => hstarted (hchanges.created hcreated)⟩

theorem console?_perform_of_none {s : Server} {k : Nat} (hk : s.lobby.console? k = none) {a : Act}
    {c : Console} (hc : (s.perform a).lobby.console? k = some c)
    : c.status = .created ∧ c.members = ∅ := by
  rcases (alters_perform s a).consoles with hsame | ⟨j, cj, c', hcj, _, hset⟩ |
    ⟨_, _, _, _, hnew⟩
  . rw [hsame, hk] at hc
    simp at hc
  . rw [hset] at hc
    split at hc
    . next heq =>
      rw [heq, hcj] at hk
      simp at hk
    . rw [hk] at hc
      simp at hc
  . rw [hnew] at hc
    split at hc
    . rw [Option.some.injEq] at hc
      rw [← hc]
      exact ⟨rfl, rfl⟩
    . rw [hk] at hc
      simp at hc

end Server
end PadRelay
