import PadRelay.Proofs.Console.Treatment
import PadRelay.Proofs.Server.Operation

/-!
This module contains the theory of who holds which mailbox. The mailbox of a stream is held by the
stream itself until it is bound, and from then on by nobody but the client that it was bound to.
-/

namespace PadRelay
namespace Lobby

@[simp]
theorem console_delistIf (e : LobbyEntry) (p : Console → Bool)
    : (e.delistIf p).console = e.console := by
  unfold LobbyEntry.delistIf
  split <;> rfl

@[simp]
theorem console?_removeFinished (l : Lobby) (k : Nat)
    : l.removeFinished.console? k = l.console? k := by
  simp [removeFinished, console?, Function.comp_def]

theorem console?_create (l : Lobby) (title romName romHash : String)
    : (∀ k, (l.create title romName romHash).2.console? k = l.console? k) ∨
        ∃ id, ∀ k, (l.create title romName romHash).2.console? k
          =
        if k = l.consoles.length then some { id, title, romName, romHash } else l.console? k := by
  unfold create
  dsimp
  split
  . left
    intro k
    apply console?_removeFinished
  . right
    refine ⟨⟨l.removeFinished.consoleIds.draw.1⟩, ?_⟩
    intro k
    have hlen : l.removeFinished.consoles.length = l.consoles.length := by
      simp [removeFinished]
    have hold := console?_removeFinished l k
    unfold console? at hold ⊢
    dsimp
    split
    . next heq => simp [heq, ← hlen]
    . next hne =>
      rw [← hold, List.getElem?_append]
      split
      . simp [Function.comp_def]
      . next hge =>
        rw [List.length_map, hlen] at hge
        have hnone : l.removeFinished.consoles[k]? = none := by
          rw [List.getElem?_eq_none_iff, hlen]
          omega
        rw [hnone, List.length_map, hlen]
        have : k - l.consoles.length ≠ 0 := by omega
        simp [this]

theorem console?_create_of_some {l : Lobby} {k : Nat} {c : Console} (h : l.console? k = some c)
    (title romName romHash : String)
    : (l.create title romName romHash).2.console? k = some c := by
  rcases console?_create l title romName romHash with hsame | ⟨_, hnew⟩
  . rw [hsame, h]
  . rw [hnew, if_neg, h]
    rcases console?_eq_some_iff.1 h with ⟨e, he, _⟩
    have := (List.getElem?_eq_some_iff.1 he).1
    omega

end Lobby

namespace Console

theorem plug_eq_ok {c : Console} {ids : IdSource} {delay : Int32} {requested : List Port}
    {romHash : String} {p : Plugged} (h : c.plug ids delay requested romHash = .ok p)
    : c.status = .created ∧ requested.filter Port.isRequest ≠ [] ∧
        ∃ verdicts,
          verdicts = judgeAll c.occupied (Port.sort (requested.filter Port.isRequest)) ∧
          allAcceptable verdicts = true ∧
          p = {
            clientId := ⟨ids.next⟩
            ports := (PortSet.ofList (verdicts.map (·.1))).toList
            console := { c with
              members := c.members.insert ⟨ids.next⟩
                { ports := PortSet.ofList (verdicts.map (·.1)), delay } }
            ids := ⟨ids.next + 1⟩ } := by
  unfold plug at h
  split at h
  . simp at h
  . next hstatus =>
    split at h
    . simp at h
    . dsimp at h
      split at h
      . simp at h
      . next hrequests =>
        split at h
        . next hall =>
          simp only [Except.ok.injEq] at h
          refine ⟨Classical.not_not.1 hstatus, hrequests, _, rfl, hall, ?_⟩
          rw [← h]
          rfl
        . simp at h

end Console

namespace Server

/-- Member `id` of console `k` holds the mailbox of stream `i`. -/
def Holds (s : Server) (k : Nat) (id : ClientId) (i : Nat) : Prop :=
  ∃ c m, s.lobby.console? k = some c ∧ c.members.get? id = some m ∧ m.mailbox = some i

/-- The bookkeeping of streams and mailboxes is in order. -/
structure Consistent (s : Server) : Prop where
  length : s.room.boxes.length = s.streams.length
  sink : ∀ (i : Nat) (stream : EventStream) (j : Nat), s.streams[i]? = some stream →
    stream.sink = some j → j = i ∧ stream.binding = none ∧ stream.isOpen = true
  anonymous : ∀ (i : Nat) (stream : EventStream), s.streams[i]? = some stream → stream.isOpen = true →
    stream.binding = none → stream.sink = some i
  bound : ∀ i b, s.boundTo i = some b →
    ∃ c m, s.lobby.console? b.console = some c ∧ c.members.get? b.clientId = some m
  held : ∀ k id i, s.Holds k id i →
    ∃ stream, s.streams[i]? = some stream ∧ stream.binding = some ⟨k, id⟩ ∧ stream.isOpen = true

theorem consistent_initial (testMode : Bool) (limit : Option Nat)
    : (initial testMode limit).Consistent where
  length := rfl
  sink i stream j h := by simp [initial] at h
  anonymous i stream h := by simp [initial] at h
  bound i b h := by simp [initial, boundTo] at h
  held k id i h := by
    rcases h with ⟨c, m, hc, _⟩
    simp [initial, Lobby.console?] at hc

theorem Consistent.separate {s : Server} (h : s.Consistent) {k : Nat} {c : Console}
    (hc : s.lobby.console? k = some c) : c.Separate := by
  intro id id' m m' i hm hm' hi hi'
  rcases h.held k id i ⟨c, m, hc, hm, hi⟩ with ⟨stream, hstream, hb, _⟩
  rcases h.held k id' i ⟨c, m', hc, hm', hi'⟩ with ⟨stream', hstream', hb', _⟩
  -- A stream belongs to one client only, so two holders of its mailbox are the same client.
  rw [hstream, Option.some.injEq] at hstream'
  rw [← hstream', hb, Option.some.injEq, Binding.mk.injEq] at hb'
  exact hb'.2

theorem Consistent.boundTo_of_holds {s : Server} (h : s.Consistent) {k : Nat} {id : ClientId}
    {i : Nat} (hh : s.Holds k id i) : s.boundTo i = some ⟨k, id⟩ := by
  rcases h.held k id i hh with ⟨stream, hstream, hb, _⟩
  rw [boundTo_eq_some_iff]
  exact ⟨stream, hstream, hb⟩

theorem Consistent.box {s : Server} (h : s.Consistent) {i : Nat} {stream : EventStream}
    (hi : s.streams[i]? = some stream) : ∃ b, s.room.boxes[i]? = some b := by
  have hlt := (List.getElem?_eq_some_iff.1 hi).1
  rw [← h.length] at hlt
  exact ⟨_, List.getElem?_eq_getElem hlt⟩

section Update

variable {s : Server} {k : Nat} {c : Console} {r : Console × Mailroom}
variable {f : ClientId → Member → Mailroom → Member × Mailroom}

theorem holds_update (hc : s.lobby.console? k = some c) (hf : ∀ id, Member.Confined (f id))
    (hs : c.Serves f s.room r) {j : Nat} {id : ClientId} {i : Nat}
    (h : (s.update k r).Holds j id i) : s.Holds j id i := by
  rcases h with ⟨c', m', hc', hm', hi⟩
  rw [update, Lobby.console?_set] at hc'
  split at hc'
  . next heq =>
    subst heq
    rw [hc, Option.map_some, Option.some.injEq] at hc'
    rw [← hc', hs.member, Option.map_eq_some_iff] at hm'
    rcases hm' with ⟨m, hm, rfl⟩
    refine ⟨c, m, hc, hm, ?_⟩
    cases (hf id).mailbox m s.room with
    | inl heq => rwa [← heq]
    | inr heq => simp [heq] at hi
  . exact ⟨c', m', hc', hm', hi⟩

theorem Consistent.update (h : s.Consistent) (hc : s.lobby.console? k = some c)
    (hf : ∀ id, Member.Confined (f id)) (hs : c.Serves f s.room r) : (s.update k r).Consistent where
  length := hs.length.trans h.length
  sink := h.sink
  anonymous := h.anonymous
  bound i b hb := by
    rcases h.bound i b hb with ⟨c', m, hc', hm⟩
    unfold Server.update
    dsimp
    rw [Lobby.console?_set]
    split
    . next heq =>
      rw [← heq, hc, Option.some.injEq] at hc'
      subst hc'
      exact ⟨r.1, _, by simp [← heq, hc], by rw [hs.member, hm]; rfl⟩
    . exact ⟨c', m, hc', hm⟩
  held j id i hh := h.held j id i (holds_update hc hf hs hh)

end Update

theorem Consistent.of_console? {s : Server} (h : s.Consistent) {lobby : Lobby} {stopping : Bool}
    (hkeep : ∀ k c, s.lobby.console? k = some c → ∃ c', lobby.console? k = some c' ∧
      ∀ id m, c.members.get? id = some m → ∃ m', c'.members.get? id = some m')
    (hback : ∀ k id i, Holds { s with lobby, stopping } k id i → s.Holds k id i)
    : Consistent { s with lobby, stopping } where
  length := h.length
  sink := h.sink
  anonymous := h.anonymous
  bound i b hb := by
    rcases h.bound i b hb with ⟨c, m, hc, hm⟩
    rcases hkeep _ c hc with ⟨c', hc', hmembers⟩
    rcases hmembers _ m hm with ⟨m', hm'⟩
    exact ⟨c', m', hc', hm'⟩
  held k id i hh := h.held k id i (hback k id i hh)

theorem holds_create {s : Server} {title romName romHash : String} {k : Nat} {id : ClientId}
    {i : Nat} (h : (s.perform (.create title romName romHash)).Holds k id i) : s.Holds k id i := by
  rcases h with ⟨c, m, hc, hm, hi⟩
  unfold perform at hc
  dsimp at hc
  rcases Lobby.console?_create s.lobby title romName romHash with hsame | ⟨cid, hnew⟩
  . rw [hsame] at hc
    exact ⟨c, m, hc, hm, hi⟩
  . rw [hnew] at hc
    split at hc
    . rw [Option.some.injEq] at hc
      rw [← hc] at hm
      simp at hm
    . exact ⟨c, m, hc, hm, hi⟩

theorem consistent_create {s : Server} (h : s.Consistent) (title romName romHash : String)
    : (s.perform (.create title romName romHash)).Consistent := by
  refine h.of_console? ?_ (fun k id i hh => holds_create hh)
  intro k c hc
  exact ⟨c, Lobby.console?_create_of_some hc title romName romHash, fun id m hm => ⟨m, hm⟩⟩

theorem perform_plug {s : Server} {k : Nat} {c : Console} (hc : s.lobby.console? k = some c)
    (delay : Int32) (requested : List Port) (romHash : String)
    : s.perform (.plug k delay requested romHash)
        =
      match c.plug s.lobby.clientIds delay requested romHash with
      | .error _ => s
      | .ok p => { s with lobby := { (s.lobby.set k p.console) with clientIds := p.ids } } := by
  simp only [perform, hc, Lobby.plug]
  cases c.plug s.lobby.clientIds delay requested romHash <;> rfl

theorem holds_plug {s : Server} {k : Nat} {delay : Int32} {requested : List Port}
    {romHash : String} {j : Nat} {id : ClientId} {i : Nat}
    (h : (s.perform (.plug k delay requested romHash)).Holds j id i) : s.Holds j id i := by
  cases hc : s.lobby.console? k with
  | none =>
    simp only [perform, hc] at h
    exact h
  | some c =>
    rw [perform_plug hc] at h
    cases hplug : c.plug s.lobby.clientIds delay requested romHash with
    | error e =>
      rw [hplug] at h
      exact h
    | ok p =>
      rw [hplug] at h
      rcases Console.plug_eq_ok hplug with ⟨_, _, verdicts, _, _, rfl⟩
      rcases h with ⟨c', m, hc', hm, hi⟩
      replace hc' : (s.lobby.set k _).console? j = some c' := hc'
      rw [Lobby.console?_set] at hc'
      split at hc'
      . next heq =>
        rw [← heq, hc, Option.map_some, Option.some.injEq] at hc'
        rw [← hc'] at hm
        dsimp at hm
        rw [SortedMap.get?_insert] at hm
        split at hm
        . rw [Option.some.injEq] at hm
          simp [← hm] at hi
        . exact ⟨c, m, by rw [← heq, hc], hm, hi⟩
      . exact ⟨c', m, hc', hm, hi⟩

theorem perform_plug_frame (s : Server) (k : Nat) (delay : Int32) (requested : List Port)
    (romHash : String)
    : (s.perform (.plug k delay requested romHash)).room = s.room ∧
        (s.perform (.plug k delay requested romHash)).streams = s.streams := by
  unfold perform
  dsimp
  split
  . exact ⟨rfl, rfl⟩
  . split
    . exact ⟨rfl, rfl⟩
    . exact ⟨rfl, rfl⟩

theorem holds_prune {s : Server} {k : Nat} {id : ClientId} {i : Nat}
    (h : (s.perform .prune).Holds k id i) : s.Holds k id i := by
  rcases h with ⟨c, m, hc, hm, hi⟩
  exact ⟨c, m, Lobby.console?_removeFinished s.lobby k ▸ hc, hm, hi⟩

theorem consistent_plug {s : Server} (h : s.Consistent) (k : Nat) (delay : Int32)
    (requested : List Port) (romHash : String)
    : (s.perform (.plug k delay requested romHash)).Consistent := by
  have hback : ∀ j id i, (s.perform (.plug k delay requested romHash)).Holds j id i →
      s.Holds j id i := fun _ _ _ hh => holds_plug hh
  cases hc : s.lobby.console? k with
  | none => simpa [perform, hc] using h
  | some c =>
    rw [perform_plug hc] at hback ⊢
    cases hplug : c.plug s.lobby.clientIds delay requested romHash with
    | error e => exact h
    | ok p =>
      rw [hplug] at hback
      rcases Console.plug_eq_ok hplug with ⟨_, _, verdicts, _, _, rfl⟩
      refine h.of_console? ?_ hback
      intro j c' hc'
      by_cases heq : k = j
      . rw [← heq, hc, Option.some.injEq] at hc'
        refine ⟨_, by rw [← heq]; exact Lobby.console?_set_self hc _, ?_⟩
        intro id m hm
        dsimp
        rw [SortedMap.get?_insert]
        split
        . exact ⟨_, rfl⟩
        . exact ⟨m, by rw [hc', hm]⟩
      . exact ⟨c', by rw [← hc']; exact Lobby.console?_set_of_ne heq _ _, fun id m hm => ⟨m, hm⟩⟩

theorem consistent_of_room {s : Server} (h : s.Consistent) {room : Mailroom}
    (hlen : room.boxes.length = s.room.boxes.length) : Consistent { s with room } where
  length := hlen.trans h.length
  sink := h.sink
  anonymous := h.anonymous
  bound := h.bound
  held := h.held

theorem getElem?_streams_openStream (s : Server) (i : Nat)
    : s.openStream.streams[i]?
        =
      if i = s.streams.length then some { sink := some s.room.nextBox } else s.streams[i]? := by
  unfold openStream
  dsimp
  rw [List.getElem?_append]
  split
  . next hlt =>
    have : i ≠ s.streams.length := by omega
    simp [this]
  . next hge =>
    split
    . next heq => simp [heq]
    . next hne =>
      have : s.streams[i]? = none := by
        rw [List.getElem?_eq_none_iff]
        omega
      have hsub : i - s.streams.length ≠ 0 := by omega
      simp [this, hsub]

theorem boundTo_openStream (s : Server) (i : Nat) : s.openStream.boundTo i = s.boundTo i := by
  unfold boundTo
  rw [getElem?_streams_openStream]
  split
  . next heq => simp [heq]
  . rfl

theorem consistent_openStream {s : Server} (h : s.Consistent) : s.openStream.Consistent where
  length := by
    unfold openStream Mailroom.openBox
    simp [h.length]
  sink i stream j hi hj := by
    rw [getElem?_streams_openStream] at hi
    split at hi
    . next heq =>
      rw [Option.some.injEq] at hi
      subst hi
      rw [Option.some.injEq] at hj
      refine ⟨?_, rfl, rfl⟩
      rw [← hj, heq, ← h.length]
      rfl
    . exact h.sink i stream j hi hj
  anonymous i stream hi hopen hbind := by
    rw [getElem?_streams_openStream] at hi
    split at hi
    . next heq =>
      rw [Option.some.injEq] at hi
      rw [← hi, heq, ← h.length]
      rfl
    . exact h.anonymous i stream hi hopen hbind
  bound i b hb := h.bound i b (boundTo_openStream s i ▸ hb)
  held k id i hh := by
    rcases h.held k id i hh with ⟨stream, hstream, hb, hopen⟩
    refine ⟨stream, ?_, hb, hopen⟩
    have := (List.getElem?_eq_some_iff.1 hstream).1
    rw [getElem?_streams_openStream, if_neg (by omega), hstream]

theorem length_replyAnonymous (s : Server) (stream : EventStream) (consoleId : Int64)
    (status : InvalidDataStatus)
    : ∃ room, s.replyAnonymous stream consoleId status = { s with room } ∧
        room.boxes.length = s.room.boxes.length := by
  unfold replyAnonymous
  split
  . exact ⟨s.room, rfl, rfl⟩
  . exact ⟨_, rfl, Mailroom.length_post _ _ _⟩

theorem length_take (room : Mailroom) (i n : Nat)
    : (room.take i n).2.boxes.length = room.boxes.length := by
  unfold Mailroom.take
  split <;> simp

theorem bind?_eq_ok {s s' : Server} {i : Nat} {stream : EventStream} {ready : ClientReady}
    {b : Binding} (h : s.bind? i stream ready = .ok (b, s'))
    : ∃ c m box, s.lobby.lookup? ⟨ready.consoleId⟩ = some (b.console, c) ∧
        b.clientId = ⟨ready.clientId⟩ ∧ c.members.get? b.clientId = some m ∧ m.mailbox = none ∧
        stream.sink = some box ∧
        s' = { s.setStream i { stream with sink := none, binding := some b } with
          lobby := s.lobby.set b.console { c with
            members := c.members.insert b.clientId { m with mailbox := some box } } } := by
  unfold bind? at h
  split at h
  . simp at h
  . next k c hlookup =>
    split at h
    . simp at h
    . next box hsink =>
      split at h
      . simp at h
      . next c' hbind =>
        simp only [Except.ok.injEq, Prod.mk.injEq] at h
        rcases h with ⟨rfl, rfl⟩
        unfold Console.bind? at hbind
        split at hbind
        . simp at hbind
        . next m hm =>
          rw [Option.map_eq_some_iff] at hbind
          rcases hbind with ⟨m', hm', rfl⟩
          unfold Member.bind? at hm'
          split at hm'
          . simp at hm'
          . next hnone =>
            rw [Option.some.injEq] at hm'
            rw [← hm']
            exact ⟨c, m, box, hlookup, rfl, hm, hnone, hsink, rfl⟩

theorem getElem?_setStream {s : Server} {i : Nat} {stream : EventStream}
    (h : s.streams[i]? = some stream) (stream' : EventStream) (j : Nat)
    : (s.setStream i stream').streams[j]? = if i = j then some stream' else s.streams[j]? := by
  have hlt := (List.getElem?_eq_some_iff.1 h).1
  unfold setStream
  dsimp
  rw [List.getElem?_set]
  simp only [hlt, ↓reduceIte]

theorem holds_bind {s s' : Server} {i : Nat} {stream : EventStream} {ready : ClientReady}
    {b : Binding} (h : s.bind? i stream ready = .ok (b, s')) {k : Nat} {id : ClientId} {j : Nat}
    : s'.Holds k id j ↔
        s.Holds k id j ∨ (k = b.console ∧ id = b.clientId ∧ stream.sink = some j) := by
  rcases bind?_eq_ok h with ⟨c, m, box, hlookup, _, hm, hnone, hsink, rfl⟩
  have hc := (Lobby.lookup?_eq_some hlookup).1
  unfold Holds
  dsimp
  rw [Lobby.console?_set]
  by_cases hk : b.console = k
  . subst hk
    simp only [↓reduceIte, hc, Option.map_some, Option.some.injEq]
    constructor
    . rintro ⟨c', m', rfl, hm', hj⟩
      dsimp at hm'
      rw [SortedMap.get?_insert] at hm'
      split at hm'
      . next heq =>
        rw [Option.some.injEq] at hm'
        rw [← hm'] at hj
        exact Or.inr ⟨trivial, heq, by rw [hsink]; exact hj⟩
      . exact Or.inl ⟨c, m', rfl, hm', hj⟩
    . -- The client held no mailbox, so nothing that was held is replaced.
      rintro (⟨c', m', rfl, hm', hj⟩ | ⟨-, rfl, hj⟩)
      . refine ⟨_, m', rfl, ?_, hj⟩
        dsimp
        rw [SortedMap.get?_insert_of_ne, hm']
        intro heq
        rw [heq, hm, Option.some.injEq] at hm'
        rw [← hm', hnone] at hj
        simp at hj
      . refine ⟨_, _, rfl, SortedMap.get?_insert_self _ _ _, ?_⟩
        rw [← hj, hsink]
  . have : k ≠ b.console := fun heq => hk heq.symm
    simp [hk, this]

theorem consistent_bind {s s' : Server} (h : s.Consistent) {i : Nat} {stream : EventStream}
    {ready : ClientReady} {b : Binding} (hstream : s.streams[i]? = some stream)
    (hbind : s.bind? i stream ready = .ok (b, s')) : s'.Consistent := by
  have hholds := fun k id j => @holds_bind _ _ _ _ _ _ hbind k id j
  rcases bind?_eq_ok hbind with ⟨c, m, box, hlookup, _, hm, hnone, hsink, rfl⟩
  have hc := (Lobby.lookup?_eq_some hlookup).1
  have hget := getElem?_setStream hstream { stream with sink := none, binding := some b }
  -- The stream gives up its sink at the moment when the client takes hold of the mailbox.
  have ⟨hbox, hunbound, hopen⟩ := h.sink i stream box hstream hsink
  constructor
  . simp [setStream, h.length]
  . intro j stream' box' hj hbox'
    dsimp at hj
    rw [hget] at hj
    split at hj
    . rw [Option.some.injEq] at hj
      simp [← hj] at hbox'
    . exact h.sink j stream' box' hj hbox'
  . intro j stream' hj hopen' hunbound'
    dsimp at hj
    rw [hget] at hj
    split at hj
    . rw [Option.some.injEq] at hj
      simp [← hj] at hunbound'
    . exact h.anonymous j stream' hj hopen' hunbound'
  . intro j b' hb'
    have hmember : ∃ c' m', s.lobby.console? b'.console = some c' ∧
        c'.members.get? b'.clientId = some m' := by
      rw [boundTo_eq_some_iff] at hb'
      rcases hb' with ⟨stream', hj, hb'⟩
      dsimp at hj
      rw [hget] at hj
      split at hj
      . rw [Option.some.injEq] at hj
        rw [← hj, Option.some.injEq] at hb'
        rw [← hb']
        exact ⟨c, m, hc, hm⟩
      . exact h.bound j b' (boundTo_eq_some_iff.2 ⟨stream', hj, hb'⟩)
    rcases hmember with ⟨c', m', hc', hm'⟩
    dsimp
    rw [Lobby.console?_set]
    split
    . next heq =>
      rw [← heq, hc, Option.some.injEq] at hc'
      rw [← heq, hc, Option.map_some]
      by_cases hid : b'.clientId = b.clientId
      . exact ⟨_, _, rfl, by rw [hid]; apply SortedMap.get?_insert_self⟩
      . exact ⟨_, m', rfl, by dsimp; rw [SortedMap.get?_insert_of_ne _ hid, hc', hm']⟩
    . exact ⟨c', m', hc', hm'⟩
  . intro k id j hh
    rw [hholds] at hh
    dsimp
    rw [hget]
    rcases hh with hh | ⟨rfl, rfl, hj⟩
    . rcases h.held k id j hh with ⟨stream', hj, hb', hopen'⟩
      split
      . next heq =>
        rw [← heq, hstream, Option.some.injEq] at hj
        rw [← hj, hunbound] at hb'
        simp at hb'
      . exact ⟨stream', hj, hb', hopen'⟩
    . rw [hsink, Option.some.injEq] at hj
      refine ⟨_, if_pos (by omega), rfl, hopen⟩

theorem consistent_dispatch {s : Server} (h : s.Consistent) (b : Binding) (e : OutgoingEvent)
    : (s.dispatch b e).Consistent := by
  unfold dispatch
  split
  . exact h
  . next c hc =>
    apply h.update hc (c.confined_handling b.clientId e)
    exact Console.serves_handle (h.separate hc) b.clientId e s.room

theorem start_eq_ok {c : Console} {room : Mailroom} {r : Console × Mailroom}
    (h : c.start room = .ok r)
    : c.status = .created ∧ c.allReady = true ∧ r = c.broadcastStart room := by
  unfold Console.start at h
  split at h
  . simp at h
  . next hstatus =>
    split at h
    . simp at h
    . next hready =>
      rw [Except.ok.injEq] at h
      simp at hstatus hready
      exact ⟨hstatus, hready, h.symm⟩

theorem consistent_start {s : Server} (h : s.Consistent) (k : Nat)
    : (s.perform (.start k)).Consistent := by
  unfold perform
  dsimp
  split
  . exact h
  . next c hc =>
    split
    . exact h
    . next r hr =>
      rw [(start_eq_ok hr).2.2]
      apply h.update hc (fun _ => Member.confined_undergo _ _ _)
      exact Console.serves_broadcastStart (h.separate hc) s.room

theorem consistent_stop {s : Server} (h : s.Consistent) (k : Nat)
    : (s.perform (.stop k)).Consistent := by
  unfold perform
  dsimp
  split
  . exact h
  . next c hc =>
    apply h.update hc (fun _ => Member.confined_undergo _ _ _)
    exact Console.serves_stop (h.separate hc) s.room

theorem consistent_setStream_closed {s : Server} (h : s.Consistent) {i : Nat}
    {stream : EventStream} (hstream : s.streams[i]? = some stream)
    (hfree : ∀ k id, ¬ s.Holds k id i)
    : (s.setStream i
        { stream with sink := none, isOpen := false, partialFrame := [] }).Consistent := by
  have hget := getElem?_setStream hstream
    { stream with sink := none, isOpen := false, partialFrame := [] }
  constructor
  . simp [setStream, h.length]
  . intro j stream' box hj hbox
    rw [hget] at hj
    split at hj
    . rw [Option.some.injEq] at hj
      simp [← hj] at hbox
    . exact h.sink j stream' box hj hbox
  . intro j stream' hj hopen hunbound
    rw [hget] at hj
    split at hj
    . rw [Option.some.injEq] at hj
      simp [← hj] at hopen
    . exact h.anonymous j stream' hj hopen hunbound
  . intro j b hb
    apply h.bound j b
    rw [boundTo_eq_some_iff] at hb ⊢
    rcases hb with ⟨stream', hj, hb⟩
    rw [hget] at hj
    split at hj
    . next heq =>
      rw [Option.some.injEq] at hj
      rw [← heq]
      exact ⟨stream, hstream, by rw [← hj] at hb; exact hb⟩
    . exact ⟨stream', hj, hb⟩
  . intro k id j hh
    rw [hget]
    split
    . next heq => exact absurd (heq ▸ hh) (hfree k id)
    . exact h.held k id j hh

theorem closeStream_eq {s : Server} {i : Nat} {stream : EventStream}
    (hstream : s.streams[i]? = some stream) {b : Binding} (hb : stream.binding = some b)
    {c : Console} (hc : s.lobby.console? b.console = some c)
    : s.closeStream i
        =
      (s.update b.console (c.streamClosed b.clientId s.room)).setStream i
        { stream with sink := none, isOpen := false, partialFrame := [] } := by
  simp only [closeStream, hstream, hb, hc]
  rfl

theorem not_holds_streamClosed {s : Server} (h : s.Consistent) {i : Nat} {b : Binding}
    (hb : s.boundTo i = some b) {c : Console} (hc : s.lobby.console? b.console = some c)
    (k : Nat) (id : ClientId)
    : ¬ (s.update b.console (c.streamClosed b.clientId s.room)).Holds k id i := by
  have hserves := Console.serves_streamClosed (h.separate hc) b.clientId s.room
  intro hh
  have hbefore := holds_update hc (Console.confined_closing b.clientId) hserves hh
  have hbound := h.boundTo_of_holds hbefore
  rw [hb, Option.some.injEq] at hbound
  subst hbound
  rcases hh with ⟨c', m', hc', hm', hi⟩
  rw [update, Lobby.console?_set_self hc, Option.some.injEq] at hc'
  rw [← hc', hserves.member, Option.map_eq_some_iff] at hm'
  rcases hm' with ⟨m, _, rfl⟩
  simp [Console.closing, Member.undergo] at hi

theorem consistent_closeStream {s : Server} (h : s.Consistent) (i : Nat)
    : (s.closeStream i).Consistent := by
  cases hstream : s.streams[i]? with
  | none => simpa [closeStream, hstream] using h
  | some stream =>
    cases hb : stream.binding with
    | some b =>
      have hbound : s.boundTo i = some b := boundTo_eq_some_iff.2 ⟨stream, hstream, hb⟩
      rcases h.bound i b hbound with ⟨c, _, hc, _⟩
      have hserves := Console.serves_streamClosed (h.separate hc) b.clientId s.room
      rw [closeStream_eq hstream hb hc]
      apply consistent_setStream_closed (h.update hc (Console.confined_closing _) hserves) hstream
      exact not_holds_streamClosed h hbound hc
    | none =>
      -- No client holds the mailbox of a stream that was never bound.
      have hfree : ∀ k id, ¬ s.Holds k id i := by
        intro k id hh
        rcases h.held k id i hh with ⟨stream', hstream', hb', _⟩
        rw [hstream, Option.some.injEq] at hstream'
        rw [← hstream', hb] at hb'
        simp at hb'
      have hclosed := consistent_setStream_closed h hstream hfree
      rw [hb] at hclosed
      cases hsink : stream.sink with
      | none => simpa [closeStream, hstream, hb, hsink] using hclosed
      | some box =>
        simp only [closeStream, hstream, hb, hsink]
        apply consistent_of_room hclosed
        simp

theorem consistent_perform {s : Server} (h : s.Consistent) (a : Act) : (s.perform a).Consistent := by
  cases a with
  | create title romName romHash => exact consistent_create h title romName romHash
  | plug k delay requested romHash => exact consistent_plug h k delay requested romHash
  | start k => exact consistent_start h k
  | stop k => exact consistent_stop h k
  | openStream => exact consistent_openStream h
  | reply i consoleId status =>
    unfold perform
    dsimp
    split
    . exact h
    . next stream _ =>
      rcases length_replyAnonymous s stream consoleId status with ⟨room, heq, hlen⟩
      rw [heq]
      exact consistent_of_room h hlen
  | bind i ready =>
    unfold perform
    dsimp
    split
    . exact h
    . next stream hstream =>
      split
      . exact h
      . next hbind => exact consistent_bind h hstream hbind
  | handle i e =>
    unfold perform
    dsimp
    split
    . exact h
    . exact consistent_dispatch h _ e
  | close i => exact consistent_closeStream h i
  | prune =>
    apply h.of_console?
    . intro k c hc
      exact ⟨c, by rw [Lobby.console?_removeFinished, hc], fun id m hm => ⟨m, hm⟩⟩
    . exact fun k id i hh => holds_prune hh
  | take i n => exact consistent_of_room h (length_take s.room i n)
  | deafen i => exact consistent_of_room h (Mailroom.length_closeReader s.room i)
  | halt => exact ⟨h.length, h.sink, h.anonymous, h.bound, h.held⟩

theorem consistent_run (testMode : Bool) (limit : Option Nat) (ops : List Operation)
    : ((initial testMode limit).run ops).Consistent :=
  run_induction (P := Consistent) (fun _ a h => consistent_perform h a)
    (consistent_initial testMode limit) ops

theorem consistent_step {s : Server} (h : s.Consistent) (op : Operation) : (s.step op).Consistent :=
  run_induction (P := Consistent) (fun _ a h => consistent_perform h a) h [op]

end Server
end PadRelay
