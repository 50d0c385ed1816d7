import PadRelay.Proofs.Server.Changes

/-!
This module contains the theory of what the clients of a server own. Only a request for ports that was
served changes that, and all it does is to add a client. As long as the identifiers of clients do not
wrap around nothing that a client owns is ever taken away or given to somebody else.
-/

namespace PadRelay
namespace Console

theorem claim?_serves {f : ClientId → Member → Mailroom → Member × Mailroom} {c : Console}
    {room : Mailroom} {r : Console × Mailroom} (h : c.Serves f room r)
    (hf : ∀ id m room, (f id m room).1.ports = m.ports ∧ (f id m room).1.delay = m.delay)
    (id : ClientId) : r.1.claim? id = c.claim? id := by
  unfold claim?
  rw [h.member]
  cases c.members.get? id with
  | none => rfl
  | some m => simp [hf id m room]

theorem claim?_insert (c : Console) (id : ClientId) (m : Member) (id' : ClientId)
    : Console.claim? { c with members := c.members.insert id m } id'
        =
      if id' = id then some (m.ports, m.delay) else c.claim? id' := by
  unfold claim?
  dsimp
  rw [SortedMap.get?_insert]
  split <;> rfl

end Console

namespace Server

/-- What a client of the console at position `k` owns. -/
def claim? (s : Server) (k : Nat) (id : ClientId) : Option (PortSet × Int32) :=
  (s.lobby.console? k).bind (·.claim? id)

/-- The identifier of the console at position `k`. -/
def consoleId? (s : Server) (k : Nat) : Option ConsoleId :=
  (s.lobby.console? k).map (·.id)

theorem claim?_of_console? {s : Server} {k : Nat} {c : Console}
    (h : s.lobby.console? k = some c) (id : ClientId) : s.claim? k id = c.claim? id := by
  simp [claim?, h]

theorem claim?_eq_some_iff {s : Server} {k : Nat} {id : ClientId} {ports : PortSet} {delay : Int32}
    : s.claim? k id = some (ports, delay) ↔
        ∃ c m, s.lobby.console? k = some c ∧ c.members.get? id = some m ∧ m.ports = ports ∧
          m.delay = delay := by
  simp only [claim?, Option.bind_eq_some_iff, Console.claim?_eq_some_iff]
  constructor
  . rintro ⟨c, hc, m, hm⟩
    exact ⟨c, m, hc, hm⟩
  . rintro ⟨c, m, hc, hm⟩
    exact ⟨c, hc, m, hm⟩

theorem consoleId?_of_console? {s : Server} {k : Nat} {c : Console}
    (h : s.lobby.console? k = some c) : s.consoleId? k = some c.id := by
  simp [consoleId?, h]

section Update

variable {s : Server} {k : Nat} {c : Console} {r : Console × Mailroom}

theorem claim?_update (hc : s.lobby.console? k = some c) (j : Nat) (id : ClientId)
    : (s.update k r).claim? j id = if j = k then r.1.claim? id else s.claim? j id := by
  unfold claim? update
  dsimp
  rw [Lobby.console?_set]
  by_cases heq : k = j
  . simp [← heq, hc]
  . have : j ≠ k := fun h => heq h.symm
    simp [heq, this]

theorem consoleId?_update (hc : s.lobby.console? k = some c) (hr : r.1.id = c.id) (j : Nat)
    : (s.update k r).consoleId? j = s.consoleId? j := by
  unfold consoleId? update
  dsimp
  rw [Lobby.console?_set]
  split
  . next heq => simp [← heq, hc, hr]
  . rfl

end Update

/-- Nobody gains or loses anything, and every console stays. -/
structure Preserves (s s' : Server) : Prop where
  claim? : ∀ k id, s'.claim? k id = s.claim? k id
  consoleId? : ∀ k x, s.consoleId? k = some x → s'.consoleId? k = some x
  clientIds : s'.lobby.clientIds = s.lobby.clientIds

theorem Preserves.refl (s : Server) : s.Preserves s :=
  ⟨fun _ _ => rfl, fun _ _ h => h, rfl⟩

theorem Preserves.trans {s s' s'' : Server} (h : s.Preserves s') (h' : s'.Preserves s'')
    : s.Preserves s'' where
  claim? k id := by rw [h'.claim?, h.claim?]
  consoleId? k x hx := h'.consoleId? k x (h.consoleId? k x hx)
  clientIds := by rw [h'.clientIds, h.clientIds]

theorem preserves_of_console? {s s' : Server}
    (h : ∀ k, s'.lobby.console? k = s.lobby.console? k)
    (hids : s'.lobby.clientIds = s.lobby.clientIds) : s.Preserves s' := by
  refine ⟨?_, ?_, hids⟩
  . intro k id
    simp [Server.claim?, h]
  . intro k x hx
    simpa [Server.consoleId?, h] using hx

theorem Changes.claim? {s : Server} {k : Nat} {c c' : Console} {a : Act}
    (hchanges : s.Changes k c a c') (h : s.Consistent) (hc : s.lobby.console? k = some c)
    (ha : a.isPlug = false) (id : ClientId) : c'.claim? id = c.claim? id := by
  have hsep := h.separate hc
  cases hchanges with
  | plug => simp [Act.isPlug] at ha
  | start =>
    apply Console.claim?_serves (Console.serves_broadcastStart hsep s.room)
    simp
  | stop =>
    apply Console.claim?_serves (Console.serves_stop hsep s.room)
    simp
  | bind _ hm =>
    rw [Console.claim?_insert]
    split
    . next heq => rw [heq, Console.claim?_of_get? hm]
    . rfl
  | @handle _ e sender =>
    apply Console.claim?_serves (Console.serves_handle hsep sender e s.room)
    simp [Console.handling]
  | @close _ leaver =>
    apply Console.claim?_serves (Console.serves_streamClosed hsep leaver s.room)
    simp [Console.closing]

theorem preserves_perform {s : Server} (h : s.Consistent) {a : Act} (ha : a.isPlug = false)
    : s.Preserves (s.perform a) := by
  have halters := alters_perform s a
  have hids := halters.clientIds ha
  rcases halters.consoles with hsame | ⟨k, c, c', hc, hchanges, hset⟩ | ⟨_, _, _, _, hnew⟩
  . exact preserves_of_console? hsame hids
  . refine ⟨?_, ?_, hids⟩
    . intro j id
      unfold Server.claim?
      rw [hset]
      split
      . next heq =>
        rw [heq, hc]
        exact hchanges.claim? h hc ha id
      . rfl
    . intro j x hx
      unfold Server.consoleId? at hx ⊢
      rw [hset]
      split
      . next heq =>
        rw [heq, hc] at hx
        rw [← hx, Option.map_some, Option.map_some, hchanges.id_eq]
      . exact hx
  . refine ⟨?_, ?_, hids⟩
    . intro j id
      unfold Server.claim?
      rw [hnew]
      split
      . next heq => simp [heq, Lobby.console?_length, Console.claim?]
      . rfl
    . intro j x hx
      unfold Server.consoleId? at hx ⊢
      rw [hnew]
      split
      . next heq => simp [heq, Lobby.console?_length] at hx
      . exact hx

theorem preserves_performAll {s : Server} (h : s.Consistent) {acts : List Act}
    (hacts : ∀ a ∈ acts, a.isPlug = false) : s.Preserves (s.performAll acts) := by
  induction acts generalizing s with
  | nil => exact .refl s
  | cons a acts ih =>
    have ha := preserves_perform h (hacts a List.mem_cons_self)
    apply ha.trans
    apply ih (consistent_perform h a)
    exact fun a ha => hacts a (List.mem_cons_of_mem _ ha)

end Server
end PadRelay
