import PadRelay.Proofs.Server.Attendance
import PadRelay.Proofs.Server.Isolation

/-!
This module contains what the end of an event stream does to everything else: the client that the stream
belongs to is gone, and its game is over if nobody else plays it. A stream ends because its emulator
closes it, because the connection fails or because of bytes that are no event, which makes no difference.
-/

namespace PadRelay
namespace Member

theorem leave_fst (m : Member) (room : Mailroom)
    : (m.leave room).1 = { m with status := .done, mailbox := none } := by
  unfold leave closeStream
  split
  . next hnone => simp [hnone]
  . rfl

theorem getElem?_leave (m : Member) (room : Mailroom) (j : Nat)
    : (m.leave room).2.boxes[j]?
        =
      if m.mailbox = some j then (room.boxes[j]?).map Mailbox.closeSender else room.boxes[j]? := by
  unfold leave closeStream
  split
  . next hnone => simp [hnone]
  . next i hsome => simp [hsome, Mailroom.getElem?_closeSender]

end Member

namespace Console

theorem all_done_iff {members : SortedMap ClientId Member}
    : (members.values.all fun m => m.status = .done) = true ↔
        ∀ id m, members.get? id = some m → m.status = .done := by
  simp only [List.all_eq_true, decide_eq_true_eq, SortedMap.mem_values_iff]
  constructor
  . exact fun h id m hm => h m ⟨id, hm⟩
  . rintro h m ⟨id, hm⟩
    exact h id m hm

/-- The game is over if it was before or if nobody plays it any more. -/
theorem streamClosed_eq {c : Console} {id : ClientId} {m : Member} (hm : c.members.get? id = some m)
    (room : Mailroom)
    : ∃ c',
        c.streamClosed id room = (c', (m.leave room).2) ∧
        c' = { c with
          status := c'.status
          members := c.members.insert id { m with status := .done, mailbox := none } } ∧
        (c'.status = .done ↔ c.status = .done ∨
          (c.status = .powered ∧ ∀ id' m', c'.members.get? id' = some m' → m'.status = .done)) ∧
        (c'.status ≠ .done → c'.status = c.status) := by
  have hleft : c.updateMember id Member.leave room
      = ({ c with members := c.members.insert id { m with status := .done, mailbox := none } },
          (m.leave room).2) := by
    simp only [updateMember, hm, Member.leave_fst]
  unfold streamClosed
  rw [hleft]
  dsimp only
  split
  . next hover =>
    rw [all_done_iff] at hover
    exact ⟨_, rfl, rfl, ⟨fun _ => Or.inr hover, fun _ => rfl⟩, by simp⟩
  . next hgoes =>
    rw [all_done_iff] at hgoes
    refine ⟨_, rfl, rfl, ⟨Or.inl, ?_⟩, fun _ => rfl⟩
    rintro (hdone | hover)
    . exact hdone
    . exact absurd hover hgoes

end Console

namespace Server

/--
A stream of member `m` of console `k` ended. `c` is the console before and `c'` the one afterwards.
-/
structure Departure (s s' : Server) (k : Nat) (id : ClientId) (c c' : Console) (m : Member) :
    Prop where
  before : s.lobby.console? k = some c
  member : c.members.get? id = some m
  after : s'.lobby.console? k = some c'
  /-- The member has left, and the others have and are what they had and were. -/
  members : c' = { c with
    status := c'.status
    members := c.members.insert id { m with status := .done, mailbox := none } }
  over_iff : c'.status = .done ↔ c.status = .done ∨
    (c.status = .powered ∧ ∀ id' m', c'.members.get? id' = some m' → m'.status = .done)
  goesOn : c'.status ≠ .done → c'.status = c.status
  others : ∀ j, j ≠ k → s'.lobby.console? j = s.lobby.console? j
  /-- If the console is over, all consoles that are over leave the list with it. -/
  pruned : c'.status = .done → ∀ j, s'.lobby.isListed j = true ↔
    s.lobby.isListed j = true ∧ ∀ d, s'.lobby.console? j = some d → d.status ≠ .done
  listed : c'.status ≠ .done → ∀ j, s'.lobby.isListed j = s.lobby.isListed j
  box : ∀ j, s'.room.boxes[j]? =
    if m.mailbox = some j then (s.room.boxes[j]?).map Mailbox.closeSender else s.room.boxes[j]?

/-- Stream `i` ended, which nobody but its own client notices. -/
structure StreamEnds (s s' : Server) (i : Nat) : Prop where
  isOpen : s'.isOpen i = false
  streams : ∀ j, j ≠ i → s'.streams[j]? = s.streams[j]?
  pending : ∀ j, s'.room.pending j = s.room.pending j
  unbound : s.boundTo i = none → s'.lobby = s.lobby
  bound : ∀ k id, s.boundTo i = some ⟨k, id⟩ → ∃ c c' m, Departure s s' k id c c' m

section Ending

variable {s : Server} {i : Nat} {stream : EventStream}

theorem endStream_of_unbound (hstream : s.streams[i]? = some stream) (hopen : stream.isOpen = true)
    (hb : stream.binding = none)
    : ∃ room, (∀ j, room.pending j = s.room.pending j) ∧
        s.endStream i
          =
        { s.setStream i { stream with sink := none, isOpen := false, partialFrame := [] } with
          room } := by
  unfold endStream
  rw [hstream]
  dsimp
  rw [if_neg (by simp [hopen]), hb]
  dsimp
  split
  . exact ⟨s.room, fun _ => rfl, rfl⟩
  . next box _ =>
    refine ⟨s.room.closeSender box, ?_, rfl⟩
    intro j
    unfold Mailroom.pending
    rw [Mailroom.getElem?_closeSender]
    split
    . rw [Option.map_map]
      rfl
    . rfl

theorem endStream_of_bound (hstream : s.streams[i]? = some stream) (hopen : stream.isOpen = true)
    {k : Nat} {id : ClientId} (hb : stream.binding = some ⟨k, id⟩) {c : Console}
    (hc : s.lobby.console? k = some c)
    : s.endStream i
        =
      let r := c.streamClosed id s.room
      let s := (s.setStream i
        { stream with sink := none, isOpen := false, partialFrame := [] }).update k r
      if r.1.status = .done then { s with lobby := s.lobby.removeFinished } else s := by
  unfold endStream
  rw [hstream]
  dsimp
  rw [if_neg (by simp [hopen]), hb]
  dsimp
  rw [hc]

theorem departure_endStream (hstream : s.streams[i]? = some stream) (hopen : stream.isOpen = true)
    {k : Nat} {id : ClientId} (hb : stream.binding = some ⟨k, id⟩) {c : Console}
    (hc : s.lobby.console? k = some c) {m : Member} (hm : c.members.get? id = some m)
    : ∃ c', Departure s (s.endStream i) k id c c' m := by
  rcases Console.streamClosed_eq hm s.room with ⟨c', hclosed, hmembers, hover, hgoes⟩
  have hend := endStream_of_bound hstream hopen hb hc
  rw [hclosed] at hend
  dsimp only at hend
  have hconsole : ∀ j, (s.endStream i).lobby.console? j = (s.lobby.set k c').console? j := by
    intro j
    rw [hend]
    split
    . exact Lobby.console?_removeFinished _ j
    . rfl
  refine ⟨c', {
    before := hc
    member := hm
    after := by rw [hconsole, Lobby.console?_set_self hc]
    members := hmembers
    over_iff := hover
    goesOn := hgoes
    others := ?_
    pruned := ?_
    listed := ?_
    box := ?_ }⟩
  . intro j hne
    rw [hconsole, Lobby.console?_set_of_ne (Ne.symm hne)]
  . intro hdone j
    rw [hconsole, hend, if_pos hdone, ← Lobby.isListed_set s.lobby k j c']
    exact Lobby.isListed_removeFinished_iff
  . intro hgoes j
    rw [hend, if_neg hgoes]
    exact Lobby.isListed_set _ k j c'
  . intro j
    rw [← Member.getElem?_leave, hend]
    split <;> rfl

theorem streams_ended (hstream : s.streams[i]? = some stream) {s' : Server}
    (hstreams : s'.streams
      = (s.setStream i { stream with sink := none, isOpen := false, partialFrame := [] }).streams)
    : s'.isOpen i = false ∧ ∀ j, j ≠ i → s'.streams[j]? = s.streams[j]? := by
  constructor
  . unfold isOpen
    rw [hstreams, getElem?_setStream hstream, if_pos rfl]
    rfl
  . intro j hne
    rw [hstreams, getElem?_setStream hstream, if_neg (Ne.symm hne)]

theorem Departure.pending {s' : Server} {k : Nat} {id : ClientId} {c c' : Console} {m : Member}
    (h : Departure s s' k id c c' m) (j : Nat) : s'.room.pending j = s.room.pending j := by
  unfold Mailroom.pending
  rw [h.box]
  split
  . rw [Option.map_map]
    rfl
  . rfl

theorem streamEnds_endStream (h : s.Consistent) (hopen : s.isOpen i = true)
    : s.StreamEnds (s.endStream i) i := by
  rcases isOpen_eq_true_iff.1 hopen with ⟨stream, hstream, hopen⟩
  cases hb : stream.binding with
  | none =>
    have hbound : s.boundTo i = none := by simp [boundTo, hstream, hb]
    rcases endStream_of_unbound hstream hopen hb with ⟨room, hpending, hend⟩
    have hstreams : (s.endStream i).streams
        = (s.setStream i
            { stream with sink := none, isOpen := false, partialFrame := [] }).streams := by
      rw [hend]
    rcases streams_ended hstream hstreams with ⟨hclosed, hothers⟩
    refine ⟨hclosed, hothers, ?_, ?_, ?_⟩
    . rw [hend]
      exact hpending
    . intro _
      rw [hend]
      rfl
    . intro k id hbound'
      rw [hbound] at hbound'
      simp at hbound'
  | some b =>
    have hbound : s.boundTo i = some b := boundTo_eq_some_iff.2 ⟨stream, hstream, hb⟩
    rcases h.bound i b hbound with ⟨c, m, hc, hm⟩
    rcases departure_endStream hstream hopen hb hc hm with ⟨c', hdeparture⟩
    have hstreams : (s.endStream i).streams
        = (s.setStream i
            { stream with sink := none, isOpen := false, partialFrame := [] }).streams := by
      rw [endStream_of_bound hstream hopen hb hc]
      dsimp only
      split <;> rfl
    rcases streams_ended hstream hstreams with ⟨hclosed, hothers⟩
    refine ⟨hclosed, hothers, hdeparture.pending, ?_, ?_⟩
    . intro hnone
      rw [hbound] at hnone
      simp at hnone
    . intro k id hbound'
      rw [hbound, Option.some.injEq] at hbound'
      subst hbound'
      exact ⟨c, c', m, hdeparture⟩

end Ending

/--
The events in the bytes of a stream up to the first thing that is no event, and whether there is such a
thing. Bytes that are the start of an event are neither.
-/
def arrived (bytes : List UInt8) : List OutgoingEvent × Bool :=
  match h : Wire.readFrame bytes with
  | .incomplete => ([], false)
  | .malformed => ([], true)
  | .frame message rest =>
    match Wire.decode .outgoingEvent message with
    | none => ([], true)
    | some e =>
      have : rest.length < bytes.length := Wire.length_lt_of_readFrame h
      let r := arrived rest
      (e :: r.1, r.2)
termination_by bytes.length
decreasing_by assumption

theorem arrived_eq (bytes : List UInt8)
    : arrived bytes
        =
      match Wire.readFrame bytes with
      | .incomplete => ([], false)
      | .malformed => ([], true)
      | .frame message rest =>
        match Wire.decode .outgoingEvent message with
        | none => ([], true)
        | some e => (e :: (arrived rest).1, (arrived rest).2) := by
  rw [arrived]
  split
  . next h => simp only [h]
  . next h => simp only [h]
  . next h => simp only [h]

section Arriving

variable {s : Server} {i : Nat}

theorem isOpen_performAll_of_ne {acts : List Act} (hopen : s.isOpen i = true)
    (hacts : ∀ a ∈ acts, a ≠ .close i) : (s.performAll acts).isOpen i = true := by
  induction acts generalizing s with
  | nil => exact hopen
  | cons a acts ih =>
    rw [List.forall_mem_cons] at hacts
    exact ih (isOpen_perform_of_ne hopen hacts.1) hacts.2

theorem isOpen_receive (hopen : s.isOpen i = true) (e : OutgoingEvent)
    : (s.receive i e).isOpen i = true := by
  have hstep : s.receive i e = s.performAll (s.acts (.receive i e)) :=
    step_eq_performAll s (.receive i e)
  rw [hstep]
  apply isOpen_performAll_of_ne hopen
  rcases acts_receive s i e with h | ⟨_, _, h⟩ | ⟨_, _, h⟩ | ⟨_, _, _, _, _, _, h⟩
  all_goals
    rw [h]
    simp

/-- A message that is there in part only is forgotten when the stream ends. -/
theorem endStream_setStream (hopen : s.isOpen i = true) (bytes : List UInt8)
    : (match s.streams[i]? with
        | none => s
        | some stream => s.setStream i { stream with partialFrame := bytes }).endStream i
        =
      s.endStream i := by
  rcases isOpen_eq_true_iff.1 hopen with ⟨stream, hstream, hopen⟩
  rw [hstream]
  dsimp only
  have hpart : (s.setStream i { stream with partialFrame := bytes }).streams[i]?
      = some { stream with partialFrame := bytes } := by
    rw [getElem?_setStream hstream, if_pos rfl]
  unfold endStream
  rw [hstream, hpart]
  simp only [setStream, update, List.set_set, hopen, Bool.not_true, Bool.false_eq_true, if_false]

theorem receiveFrames_eq (s : Server) (i : Nat) (bytes : List UInt8)
    : s.receiveFrames i bytes
        =
      match Wire.readFrame bytes with
      | .incomplete =>
        match s.streams[i]? with
        | none => s
        | some stream => s.setStream i { stream with partialFrame := bytes }
      | .malformed => s.endStream i
      | .frame message rest =>
        match Wire.decode .outgoingEvent message with
        | none => s.endStream i
        | some e => (s.receive i e).receiveFrames i rest := by
  rw [receiveFrames]
  split
  . next h => cases s.streams[i]? <;> simp only [h]
  . next h => simp only [h]
  . next message _ h =>
    cases hdecode : Wire.decode .outgoingEvent message <;> simp only [h, hdecode]

/--
However the bytes of a stream go on, what counts are the events that arrived before its end: whether it
ends because of what came next or because nothing came any more is the same.
-/
theorem receiveFrames_arrived (hopen : s.isOpen i = true) (bytes : List UInt8)
    : let s' := s.run ((arrived bytes).1.map (.receive i))
      s'.isOpen i = true ∧
        (if (arrived bytes).2 then s.receiveFrames i bytes
          else (s.receiveFrames i bytes).endStream i) = s'.endStream i := by
  induction bytes using arrived.induct generalizing s with
  | case1 bytes h =>
    rw [arrived_eq, receiveFrames_eq, h]
    exact ⟨hopen, endStream_setStream hopen bytes⟩
  | case2 bytes h =>
    rw [arrived_eq, receiveFrames_eq, h]
    exact ⟨hopen, rfl⟩
  | case3 bytes message rest h hdecode =>
    have harrived : arrived bytes = ([], true) := by
      rw [arrived_eq, h]
      dsimp only
      rw [hdecode]
    have hreceive : s.receiveFrames i bytes = s.endStream i := by
      rw [receiveFrames_eq, h]
      dsimp only
      rw [hdecode]
    rw [harrived, hreceive]
    exact ⟨hopen, rfl⟩
  | case4 bytes message rest h e hdecode hlt ih =>
    have harrived : arrived bytes = (e :: (arrived rest).1, (arrived rest).2) := by
      rw [arrived_eq, h]
      dsimp only
      rw [hdecode]
    have hreceive : s.receiveFrames i bytes = (s.receive i e).receiveFrames i rest := by
      rw [receiveFrames_eq, h]
      dsimp only
      rw [hdecode]
    rw [harrived, hreceive]
    exact ih (isOpen_receive hopen e)

end Arriving

/--
In a server in whatever state, every stream that is open may end in any way: at once, in the middle of
an event that never arrives in full, or with bytes that are no event, each after any number of events.
-/
theorem stream_end_contained (testMode : Bool) (limit : Option Nat) (ops : List Operation) {i : Nat}
    (hopen : ((initial testMode limit).run ops).isOpen i = true)
    : let s := (initial testMode limit).run ops
      s.StreamEnds (s.endStream i) i ∧
        ∀ bytes,
          let s' := s.run ((arrived bytes).1.map (.receive i))
          s'.isOpen i = true ∧
            (if (arrived bytes).2 then s.receiveFrames i bytes
              else (s.receiveFrames i bytes).endStream i) = s'.endStream i ∧
            s'.StreamEnds (s'.endStream i) i := by
  intro s
  refine ⟨streamEnds_endStream (consistent_run testMode limit ops) hopen, ?_⟩
  intro bytes s'
  rcases receiveFrames_arrived hopen bytes with ⟨hopen', hends⟩
  refine ⟨hopen', hends, streamEnds_endStream ?_ hopen'⟩
  have hcons := consistent_run testMode limit (ops ++ (arrived bytes).1.map (.receive i))
  rwa [run_append] at hcons

/-- Two players, of which the first one leaves a game that is running. -/
def duo : List Operation :=
  [.makeConsole {},
    .plugController { consoleId := 1, port1 := 1 },
    .plugController { consoleId := 1, port1 := 2 },
    .openStream,
    .openStream,
    .receive 0 { ready := some { consoleId := 1, clientId := 1 } },
    .receive 1 { ready := some { consoleId := 1, clientId := 2 } },
    .startGame { consoleId := 1 }]

/-- The game goes on, and it is over when the other player sends a message that is none. -/
theorem stream_end_contained_duo
    : let s := (initial false none).run duo
      s.isOpen 0 = true ∧ s.StreamEnds (s.endStream 0) 0 ∧
        ((s.endStream 0).lobby.console? 0).map (·.status) = some .powered ∧
        let s' := (initial false none).run (duo ++ [.endStream 0])
        s'.isOpen 1 = true ∧ s'.StreamEnds (s'.receiveFrames 1 [1, 0, 0, 0, 0]) 1 ∧
        ((s'.receiveFrames 1 [1, 0, 0, 0, 0]).lobby.console? 0).map (·.status) = some .done := by
  have hopen : ((initial false none).run duo).isOpen 0 = true := by decide +kernel
  have hopen' : ((initial false none).run (duo ++ [.endStream 0])).isOpen 1 = true := by
    decide +kernel
  have harrived : arrived [1, 0, 0, 0, 0] = ([], true) := by
    rw [arrived_eq]
    decide
  have hbytes := (stream_end_contained false none (duo ++ [.endStream 0]) hopen').2 [1, 0, 0, 0, 0]
  rw [harrived] at hbytes
  rcases hbytes with ⟨_, hends, hstreamEnds⟩
  have hbytes : ((initial false none).run (duo ++ [.endStream 0])).receiveFrames 1 [1, 0, 0, 0, 0]
      = ((initial false none).run (duo ++ [.endStream 0])).endStream 1 := hends
  dsimp only
  rw [hbytes]
  exact ⟨hopen, (stream_end_contained false none duo hopen).1, by decide +kernel, hopen', hstreamEnds,
    by decide +kernel⟩

end Server
end PadRelay
