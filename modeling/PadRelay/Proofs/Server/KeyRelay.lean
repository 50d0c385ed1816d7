import PadRelay.Proofs.Server.Outset
import PadRelay.Proofs.Server.Refusal

/-!
This module contains the proof that keys are relayed all or nothing. If all keys of an event are in order
every other client is sent all of them, and what becomes of one receiver does not depend on the others. If
one of them is not, nobody but the client that sent it notices anything.
-/

namespace PadRelay

/-- No mailbox is full that nobody reads. -/
def Mailroom.Watched (room : Mailroom) : Prop :=
  ∀ (i : Nat) b, room.boxes[i]? = some b → b.capacity ≤ b.pending.length → b.hasReader = true

namespace Member

/-- A member after it has sent an event, which may announce that it is ready. -/
def readied (m : Member) (e : OutgoingEvent) : Member :=
  if e.ready.isSome ∧ m.status = .created then { m with status := .ready } else m

theorem readied_eq (m : Member) (e : OutgoingEvent)
    : (if e.ready.isSome then m.markReady else m) = m.readied e := by
  unfold readied markReady
  cases e.ready.isSome <;> simp

@[simp]
theorem mailbox_readied (m : Member) (e : OutgoingEvent) : (m.readied e).mailbox = m.mailbox := by
  unfold readied
  split <;> rfl

/-- What becomes of member `m` and of the mailbox that it holds when it is sent event `e`. -/
structure Reaches (e : IncomingEvent) (room room' : Mailroom) (m m' : Member) : Prop where
  alone : m.mailbox = none → m' = m
  roomy : ∀ i b, m.mailbox = some i → room.boxes[i]? = some b → b.hasReader = true →
    b.pending.length < b.capacity →
    m' = m ∧ room'.boxes[i]? = some { b with pending := b.pending ++ [e] }
  full : ∀ i b, m.mailbox = some i → room.boxes[i]? = some b → b.capacity ≤ b.pending.length →
    m' = { m with mailbox := none, status := .done } ∧
      room'.boxes[i]? = some { b with hasSender := false }
  unread : ∀ i b, m.mailbox = some i → room.boxes[i]? = some b → b.hasReader = false →
    m' = m ∧ room'.boxes[i]? = some b

section Reaches

variable {e : IncomingEvent} {room room' room'' : Mailroom} {m m' : Member}

theorem Reaches.of_box (h : m.Reaches e room room' m')
    (hbox : ∀ i, m.mailbox = some i → room''.boxes[i]? = room'.boxes[i]?)
    : m.Reaches e room room'' m' where
  alone := h.alone
  roomy i b hi hb hreader hroom := by
    rw [hbox i hi]
    exact h.roomy i b hi hb hreader hroom
  full i b hi hb hfull := by
    rw [hbox i hi]
    exact h.full i b hi hb hfull
  unread i b hi hb hgone := by
    rw [hbox i hi]
    exact h.unread i b hi hb hgone

theorem reaches_post (m : Member) (e : IncomingEvent) (hwatched : room.Watched)
    : m.Reaches e room (m.post e room).2.2 (m.post e room).2.1 where
  alone hnone := by rw [post_of_none hnone]
  roomy i b hi hb hreader hroom := by
    rcases Server.post_of_room hi hb hreader hroom e with ⟨hpost, hbox⟩
    rw [hpost]
    exact ⟨rfl, hbox⟩
  full i b hi hb hfull := by
    have hreader := hwatched i b hb hfull
    have hpost : b.post e = (.full, b) := by
      simp [Mailbox.post, hreader, Nat.not_lt.2 hfull]
    rw [post_held hi hb, if_pos (by rw [hpost]), leave_of_some hi]
    refine ⟨rfl, ?_⟩
    rw [Mailroom.getElem?_closeSender, if_pos rfl, Mailroom.getElem?_post_self, hb, Option.map_some,
      hpost]
    rfl
  unread i b hi hb hgone := by
    have hpost : b.post e = (.gone, b) := by
      simp [Mailbox.post, hgone]
    rw [post_held hi hb, if_neg (by simp [hpost])]
    refine ⟨rfl, ?_⟩
    rw [Mailroom.getElem?_post_self, hb, Option.map_some, hpost]

end Reaches

end Member

namespace Console

/-- A key that member `m` may send: it is about this console and about a port of `m`. -/
def admits (c : Console) (m : Member) (key : KeyState) : Bool :=
  key.consoleId = c.id.value && m.owns (Port.ofNumber key.port)

/-- What is wrong with a key that its sender may not send. -/
def complaint (c : Console) (key : KeyState) : InvalidData where
  consoleId := key.consoleId
  port := (Port.ofNumber key.port).number
  status := Enumeration.number
    (if key.consoleId = c.id.value then InvalidDataStatus.invalidPort else .invalidConsole)

theorem firstRefusal?_eq_find? (c : Console) (m : Member) (keys : List KeyState)
    : m.firstRefusal? c.id keys = (keys.find? fun key => !c.admits m key).map c.complaint := by
  induction keys with
  | nil => rfl
  | cons key rest ih =>
    unfold Member.firstRefusal?
    dsimp
    rw [List.find?_cons]
    split
    . next hother => simp [admits, complaint, refusal, hother]
    . next hown =>
      rw [Classical.not_not] at hown
      split
      . next hport =>
        rw [Bool.not_eq_true'] at hport
        simp [admits, complaint, refusal, hown, hport]
      . next hport =>
        rw [Bool.not_eq_true', Bool.not_eq_false] at hport
        simp [admits, hown, hport, ih]

section Handling

variable {c : Console} {sender id : ClientId} {m n : Member} {e : OutgoingEvent}
variable {ev : IncomingEvent} {room : Mailroom} {r : Console × Mailroom}

theorem handling_of_none (h : c.addressed sender e id = none)
    : c.handling sender e id n room = (if id = sender then n.readied e else n, room) := by
  unfold handling Member.undergo
  rw [h, ← Member.readied_eq]
  by_cases heq : id = sender <;> simp [heq]

theorem handling_of_some (h : c.addressed sender e id = some ev)
    : c.handling sender e id n room
        =
      ((if id = sender then n.readied e else n).post ev room).2 := by
  unfold handling Member.undergo
  rw [h, ← Member.readied_eq]
  by_cases heq : id = sender <;> simp [heq]

/-- A member to which nothing is addressed keeps everything, unless it is the sender and gets ready. -/
theorem Serves.spares (hs : c.Serves (c.handling sender e) room r)
    (hn : c.members.get? id = some n) (h : c.addressed sender e id = none)
    : r.1.members.get? id = some (if id = sender then n.readied e else n) ∧
        ∀ i, n.mailbox = some i → r.2.boxes[i]? = room.boxes[i]? := by
  constructor
  . rw [hs.member, hn, Option.map_some, handling_of_none h]
  . intro i hi
    rw [hs.box id n i hn hi, handling_of_none h]

theorem Serves.reaches (hs : c.Serves (c.handling sender e) room r)
    (hn : c.members.get? id = some n) (h : c.addressed sender e id = some ev)
    (hwatched : room.Watched)
    : ∃ n', r.1.members.get? id = some n' ∧
        (if id = sender then n.readied e else n).Reaches ev room r.2 n' := by
  refine ⟨_, by rw [hs.member, hn, Option.map_some, handling_of_some h], ?_⟩
  apply (Member.reaches_post _ ev hwatched).of_box
  intro i hi
  have hi : n.mailbox = some i := by
    split at hi
    . rwa [Member.mailbox_readied] at hi
    . exact hi
  rw [hs.box id n i hn hi, handling_of_some h]

theorem room_handle_of_nil (c : Console) (sender : ClientId) (hkeys : e.keys = []) (room : Mailroom)
    : (c.handle sender e room).2 = room := by
  unfold handle
  split
  . rfl
  . dsimp
    rw [if_pos hkeys]

theorem addressed_of_nil (hkeys : e.keys = []) : c.addressed sender e id = none := by
  unfold addressed
  split
  . rfl
  . rw [if_pos hkeys]

theorem addressed_of_admits (hm : c.members.get? sender = some m) (hkeys : e.keys ≠ [])
    (hok : ∀ key ∈ e.keys, c.admits m key = true)
    : c.addressed sender e id = if id = sender then none else some { keys := e.keys } := by
  have hfind : (e.keys.find? fun key => !c.admits m key) = none := by
    simpa using hok
  unfold addressed
  rw [hm]
  dsimp
  rw [if_neg hkeys, firstRefusal?_eq_find?, hfind]
  rfl

theorem addressed_of_complaint (hm : c.members.get? sender = some m) {key : KeyState}
    (hkey : (e.keys.find? fun key => !c.admits m key) = some key)
    : c.addressed sender e id
        =
      if id = sender then some (refusalEvent (c.complaint key)) else none := by
  have hkeys : e.keys ≠ [] := by
    intro hnil
    simp [hnil] at hkey
  unfold addressed
  rw [hm]
  dsimp
  rw [if_neg hkeys, firstRefusal?_eq_find?, hkey]
  rfl

end Handling

/--
What console `c` has made of event `e` of client `id`, which it knows as its member `m`. It has become `c'`
by then, and `room` has become `room'`.
-/
structure Handles (c : Console) (id : ClientId) (m : Member) (e : OutgoingEvent) (room : Mailroom)
    (c' : Console) (room' : Mailroom) : Prop where
  console : c' = { c with status := c'.status, members := c'.members }
  roster : ∀ id', c.members.get? id' = none → c'.members.get? id' = none
  quiet : e.keys = [] → c'.members.get? id = some (m.readied e) ∧
    (∀ id', id' ≠ id → c'.members.get? id' = c.members.get? id') ∧ room' = room
  relayed : e.keys ≠ [] → (∀ key ∈ e.keys, c.admits m key = true) →
    c'.members.get? id = some (m.readied e) ∧
      (∀ i, m.mailbox = some i → room'.boxes[i]? = room.boxes[i]?) ∧
      ∀ id' n, id' ≠ id → c.members.get? id' = some n →
        ∃ n', c'.members.get? id' = some n' ∧ n.Reaches { keys := e.keys } room room' n'
  refused : ∀ key, (e.keys.find? fun key => !c.admits m key) = some key →
    (∃ m', c'.members.get? id = some m' ∧
      (m.readied e).Reaches (refusalEvent (c.complaint key)) room room' m') ∧
    ∀ id' n, id' ≠ id → c.members.get? id' = some n →
      c'.members.get? id' = some n ∧ ∀ i, n.mailbox = some i → room'.boxes[i]? = room.boxes[i]?
  boxes : ∀ j, (∀ id' n, c.members.get? id' = some n → n.mailbox ≠ some j) →
    room'.boxes[j]? = room.boxes[j]?

theorem handles_handle {c : Console} {id : ClientId} {m : Member} {room : Mailroom} (h : c.Separate)
    (hm : c.members.get? id = some m) (e : OutgoingEvent) (hwatched : room.Watched)
    : c.Handles id m e room (c.handle id e room).1 (c.handle id e room).2 := by
  have hs := serves_handle h id e room
  constructor
  case console => rw [handle_eq_members]
  case roster =>
    intro id' hnone
    rw [hs.member, hnone]
    rfl
  case quiet =>
    intro hkeys
    have hspares := fun id' n (hn : c.members.get? id' = some n) =>
      hs.spares hn (addressed_of_nil hkeys)
    refine ⟨?_, ?_, room_handle_of_nil c id hkeys room⟩
    . have := (hspares id m hm).1
      rwa [if_pos rfl] at this
    . intro id' hne
      cases hn : c.members.get? id' with
      | none => rw [hs.member, hn, Option.map_none]
      | some n =>
        have := (hspares id' n hn).1
        rwa [if_neg hne] at this
  case relayed =>
    intro hkeys hok
    have haddressed : ∀ id', c.addressed id e id' = if id' = id then none else some { keys := e.keys } :=
      fun _ => addressed_of_admits hm hkeys hok
    have hself := hs.spares hm (by simp [haddressed])
    rw [if_pos rfl] at hself
    refine ⟨hself.1, hself.2, ?_⟩
    intro id' n hne hn
    have := hs.reaches hn (by rw [haddressed, if_neg hne]) hwatched
    rwa [if_neg hne] at this
  case refused =>
    intro key hkey
    have haddressed : ∀ id', c.addressed id e id'
        = if id' = id then some (refusalEvent (c.complaint key)) else none :=
      fun _ => addressed_of_complaint hm hkey
    constructor
    . have := hs.reaches hm (by rw [haddressed, if_pos rfl]) hwatched
      rwa [if_pos rfl] at this
    . intro id' n hne hn
      have := hs.spares hn (by rw [haddressed, if_neg hne])
      rwa [if_neg hne] at this
  case boxes => exact hs.other

end Console

namespace Server

section Full

variable {s : Server}

/-- A mailbox that nobody reads is empty, so it is not full. -/
def Drained (s : Server) : Prop :=
  ∀ (i : Nat) b, s.room.boxes[i]? = some b → b.hasReader = false → b.pending = []

theorem Drained.perform (hd : s.Drained) (h : s.Consistent) (a : Act) : (s.perform a).Drained := by
  intro i b' hb' hgone
  cases hb : s.room.boxes[i]? with
  | none => exact pending_perform_of_none h hb a hb'
  | some b =>
    rcases box_perform_cases h a hb with ⟨b'', hb'', hcases⟩
    rw [hb', Option.some.injEq] at hb''
    subst hb''
    rcases hcases with hkeeps | ⟨n, _, rfl⟩ | ⟨_, rfl⟩
    . rw [hkeeps.reader] at hgone
      rw [hkeeps.gone hgone, hd i b hb hgone]
    . have := hd i b hb hgone
      simp [Mailbox.take, this]
    . rfl

theorem drained_run (testMode : Bool) (limit : Option Nat) (ops : List Operation)
    : ((initial testMode limit).run ops).Drained := by
  have hinitial : (initial testMode limit).Drained := by
    intro i b hb
    simp [initial] at hb
  exact (run_induction (P := fun s => s.Consistent ∧ s.Drained)
    (fun _ a hs => ⟨consistent_perform hs.1 a, hs.2.perform hs.1 a⟩)
    ⟨consistent_initial testMode limit, hinitial⟩ ops).2

theorem watched_run (testMode : Bool) (limit : Option Nat) (ops : List Operation)
    : ((initial testMode limit).run ops).room.Watched := by
  intro i b hb hfull
  have hcapacity := uniform_run testMode limit ops i b hb
  have hdrained := drained_run testMode limit ops i b hb
  cases hread : b.hasReader with
  | true => rfl
  | false => simp [hcapacity, hdrained hread, eventBuffer] at hfull

end Full

/--
Keys reach everybody else if all of them are in order. Otherwise they reach nobody, and the client that
sent them is told about the first one that is not.
-/
theorem keys_all_or_nothing (testMode : Bool) (limit : Option Nat) (ops : List Operation) {k : Nat}
    {c : Console} {id : ClientId} {m : Member}
    (hc : ((initial testMode limit).run ops).lobby.console? k = some c)
    (hm : c.members.get? id = some m) (e : OutgoingEvent)
    : let s := (initial testMode limit).run ops
      let s' := s.dispatch ⟨k, id⟩ e
      (∃ c', s'.lobby.console? k = some c' ∧ c.Handles id m e s.room c' s'.room) ∧
        s'.streams = s.streams ∧ ∀ j, j ≠ k → s'.lobby.console? j = s.lobby.console? j := by
  intro s
  have hs : s.Consistent := consistent_run testMode limit ops
  have hdispatch : s.dispatch ⟨k, id⟩ e = s.update k (c.handle id e s.room) := by
    have hc : s.lobby.console? k = some c := hc
    simp [dispatch, hc]
  rw [hdispatch]
  refine ⟨⟨_, Lobby.console?_set_self hc _, ?_⟩, rfl, ?_⟩
  . exact Console.handles_handle (hs.separate hc) hm e (watched_run testMode limit ops)
  . intro j hne
    exact Lobby.console?_set_of_ne (Ne.symm hne) _ _

/-- Three clients on console 1 with a port and a stream each, of which the last is not read any more. -/
def threesome : List Operation :=
  [.makeConsole {},
    .plugController { consoleId := 1, port1 := 1 },
    .plugController { consoleId := 1, port1 := 2 },
    .plugController { consoleId := 1, port1 := 3 },
    .openStream,
    .openStream,
    .openStream,
    .receive 0 { ready := some { consoleId := 1, clientId := 1 } },
    .receive 1 { ready := some { consoleId := 1, clientId := 2 } },
    .receive 2 { ready := some { consoleId := 1, clientId := 3 } },
    .stopListening 2]

def stroke : KeyState :=
  { consoleId := 1, port := 1, frame := 5 }

/--
Keys of port 1 get to the second client although nobody reads the stream of the third. A key of port 2
among them is answered, although there is also one for another console, and then nobody gets any of them.
-/
theorem keys_all_or_nothing_threesome
    : let s := (initial false none).run threesome
      let fine := s.dispatch ⟨0, ⟨1⟩⟩ { keys := [stroke, stroke] }
      let mixed := s.dispatch ⟨0, ⟨1⟩⟩
        { keys := [stroke, { stroke with port := 2 }, { stroke with consoleId := 9 }] }
      (fine.room.boxes[0]? = some { capacity := 1024 } ∧
        fine.room.boxes[1]? = some { capacity := 1024, pending := [{ keys := [stroke, stroke] }] } ∧
        fine.room.boxes[2]? = some { capacity := 1024, hasReader := false }) ∧
      (mixed.room.boxes[0]?
          =
        some { capacity := 1024, pending := [refusalEvent (refusal 1 .two .invalidPort)] } ∧
        mixed.room.boxes[1]? = some { capacity := 1024 }) := by
  intro s
  have hid : (s.lobby.console? 0).map (·.id) = some ⟨1⟩ := by decide +kernel
  have hone : (s.lobby.console? 0).bind (fun c => c.members.get? ⟨1⟩) = some {
      ports := .ofList [.one], delay := 0, status := .ready, mailbox := some 0 } := by decide +kernel
  have htwo : (s.lobby.console? 0).bind (fun c => c.members.get? ⟨2⟩) = some {
      ports := .ofList [.two], delay := 0, status := .ready, mailbox := some 1 } := by decide +kernel
  have hthree : (s.lobby.console? 0).bind (fun c => c.members.get? ⟨3⟩) = some {
      ports := .ofList [.three], delay := 0, status := .ready, mailbox := some 2 } := by
    decide +kernel
  have hboxes : s.room.boxes = [{ capacity := 1024 }, { capacity := 1024 },
      { capacity := 1024, hasReader := false }] := by decide +kernel
  rcases Option.bind_eq_some_iff.1 hone with ⟨c, hc, hm⟩
  rw [hc] at hid htwo hthree
  have hid : c.id = ⟨1⟩ := by simpa using hid
  constructor
  . rcases keys_all_or_nothing false none threesome hc hm { keys := [stroke, stroke] } with
      ⟨⟨_, _, hfine⟩, _⟩
    have hadmits : ∀ key ∈ [stroke, stroke],
        c.admits { ports := .ofList [.one], delay := 0, status := .ready, mailbox := some 0 } key
          =
        true := by
      unfold Console.admits
      rw [hid]
      decide +kernel
    rcases hfine.relayed (by simp) hadmits with ⟨_, hself, hothers⟩
    rcases hothers ⟨2⟩ _ (by decide) htwo with ⟨_, _, hreader⟩
    rcases hothers ⟨3⟩ _ (by decide) hthree with ⟨_, _, hdeaf⟩
    refine ⟨?_, ?_, ?_⟩
    . exact (hself 0 rfl).trans (by rw [hboxes]; rfl)
    . exact (hreader.roomy 1 { capacity := 1024 } rfl (by rw [hboxes]; rfl) rfl (by decide)).2
    . exact (hdeaf.unread 2 _ rfl (by rw [hboxes]; rfl) rfl).2
  . rcases keys_all_or_nothing false none threesome hc hm
      { keys := [stroke, { stroke with port := 2 }, { stroke with consoleId := 9 }] } with
      ⟨⟨_, _, hmixed⟩, _⟩
    have hfirst : ([stroke, { stroke with port := 2 }, { stroke with consoleId := 9 }].find? fun key =>
        !c.admits { ports := .ofList [.one], delay := 0, status := .ready, mailbox := some 0 } key)
          =
        some { stroke with port := 2 } := by
      unfold Console.admits
      rw [hid]
      decide +kernel
    rcases hmixed.refused _ hfirst with ⟨⟨_, _, hsender⟩, hothers⟩
    have hanswer := (hsender.roomy 0 { capacity := 1024 } rfl (by rw [hboxes]; rfl) rfl (by decide)).2
    constructor
    . rw [hanswer]
      unfold Console.complaint
      rw [hid]
      decide +kernel
    . exact ((hothers ⟨2⟩ _ (by decide) htwo).2 1 rfl).trans (by rw [hboxes]; rfl)

end Server
end PadRelay
