import PadRelay.Proofs.Server.FirstBinding
import PadRelay.Proofs.Server.Traffic

/-!
This module contains the proof that anonymous streams are harmless and that bindings are for good. An
event of a stream that belongs to nobody binds the stream if it names a client that holds no mailbox. All
that comes of any other event is one answer on the same stream.
-/

namespace PadRelay
namespace Mailbox

theorem post_eq (b : Mailbox) (e : IncomingEvent)
    : (b.post e).2
        =
      if b.hasReader = true ∧ b.pending.length < b.capacity then
        { b with pending := b.pending ++ [e] }
      else b := by
  unfold post
  split
  . simp_all
  . split
    . simp_all
    . rw [if_neg]
      simp_all

end Mailbox

namespace Server

/-- An event names client `b`, which is `m` on console `c`, and the client holds no mailbox. -/
structure Names (s : Server) (e : OutgoingEvent) (b : Binding) (c : Console) (m : Member) : Prop where
  ready : ∃ ready, e.ready = some ready ∧ ready.consoleId = c.id.value ∧
    ready.clientId = b.clientId.value
  registered : s.lobby.lookup? c.id = some (b.console, c)
  member : c.members.get? b.clientId = some m
  unheld : m.mailbox = none

/-- The answer to an event of an anonymous stream that does not bind it. -/
def rebuff (s : Server) (e : OutgoingEvent) : InvalidData :=
  match e.ready with
  | none => refusal 0 .unknown .clientNotReady
  | some ready =>
    if (s.lobby.lookup? ⟨ready.consoleId⟩).isSome then
      refusal ready.consoleId .unknown .invalidClient
    else
      refusal ready.consoleId .unknown .invalidConsole

/-- Stream `i` belongs to client `b` from now on, and its mailbox is that of the client. -/
def attach (s : Server) (i : Nat) (stream : EventStream) (b : Binding) (c : Console) (m : Member)
    : Server :=
  { s.setStream i { stream with sink := none, binding := some b } with
    lobby := s.lobby.set b.console { c with
      members := c.members.insert b.clientId { m with mailbox := some i } } }

section Anonymous

variable {s : Server} {i : Nat} {stream : EventStream} {e : OutgoingEvent} {b : Binding}
variable {c : Console} {m : Member}

theorem bind?_of_names (hsink : stream.sink = some i) (hn : s.Names e b c m)
    : ∃ ready, e.ready = some ready ∧ s.bind? i stream ready = .ok (b, s.attach i stream b c m) := by
  rcases hn.ready with ⟨ready, hready, hconsole, hclient⟩
  have hlookup : s.lobby.lookup? ⟨ready.consoleId⟩ = some (b.console, c) := by
    rw [hconsole]
    exact hn.registered
  have hid : (⟨ready.clientId⟩ : ClientId) = b.clientId := by rw [hclient]
  refine ⟨ready, hready, ?_⟩
  simp [bind?, hlookup, hsink, Console.bind?, Member.bind?, hid, hn.member, hn.unheld, attach,
    setStream]

theorem names_of_bind? {s' : Server} {ready : ClientReady} (hready : e.ready = some ready)
    (h : s.bind? i stream ready = .ok (b, s')) : ∃ c m, s.Names e b c m := by
  rcases bind?_eq_ok h with ⟨c, m, _, hlookup, hclient, hm, hnone, _⟩
  have hid := (Lobby.lookup?_eq_some hlookup).2
  refine ⟨c, m, ⟨ready, hready, ?_, ?_⟩, ?_, hm, hnone⟩
  . rw [hid]
  . rw [hclient]
  . rw [hid]
    exact hlookup

theorem bind?_of_not_names (hsink : stream.sink = some i) {ready : ClientReady}
    (hready : e.ready = some ready) (hn : ∀ b c m, ¬s.Names e b c m)
    : ∃ status, s.bind? i stream ready = .error status ∧
        s.rebuff e = refusal ready.consoleId .unknown status := by
  cases hbind : s.bind? i stream ready with
  | ok r =>
    rcases names_of_bind? hready hbind with ⟨c, m, hnames⟩
    exact absurd hnames (hn _ c m)
  | error status =>
    refine ⟨status, rfl, ?_⟩
    unfold bind? at hbind
    unfold rebuff
    rw [hready]
    dsimp
    split at hbind
    . next hlookup =>
      rw [Except.error.injEq] at hbind
      simp [hlookup, ← hbind]
    . next hlookup =>
      rw [hsink] at hbind
      dsimp at hbind
      split at hbind
      . rw [Except.error.injEq] at hbind
        simp [hlookup, ← hbind]
      . simp at hbind

/-- An event that names a client without a mailbox binds its stream first and is handled after that. -/
theorem receive_of_names (h : s.Consistent) (hstream : s.streams[i]? = some stream)
    (hopen : stream.isOpen = true) (hanonymous : stream.binding = none) (hn : s.Names e b c m)
    : let s' := s.attach i stream b c m
      s'.Holds b.console b.clientId i ∧ s'.boundTo i = some b ∧ s.receive i e = s'.dispatch b e := by
  have hsink := h.anonymous i stream hstream hopen hanonymous
  rcases bind?_of_names hsink hn with ⟨ready, hready, hbind⟩
  refine ⟨(holds_bind hbind).2 (Or.inr ⟨rfl, rfl, hsink⟩), boundTo_of_bind? hstream hbind, ?_⟩
  simp [receive, hstream, hopen, hanonymous, hready, hbind]

/-- All that comes of any other event is an answer. -/
theorem receive_of_not_names (h : s.Consistent) (hstream : s.streams[i]? = some stream)
    (hopen : stream.isOpen = true) (hanonymous : stream.binding = none)
    (hn : ∀ b c m, ¬s.Names e b c m)
    : s.receive i e = { s with room := (s.room.post i (refusalEvent (s.rebuff e))).2 } := by
  have hsink := h.anonymous i stream hstream hopen hanonymous
  cases hready : e.ready with
  | none =>
    have hanswer : s.rebuff e = refusal 0 .unknown .clientNotReady := by
      simp [rebuff, hready]
    simp [receive, hstream, hopen, hanonymous, hready, replyAnonymous, hsink, hanswer]
  | some ready =>
    rcases bind?_of_not_names hsink hready hn with ⟨status, hbind, hanswer⟩
    simp [receive, hstream, hopen, hanonymous, hready, hbind, replyAnonymous, hsink, hanswer]

theorem receive_of_boundTo (hb : s.boundTo i = some b) (hopen : s.isOpen i = true)
    : s.receive i e = s.dispatch b e := by
  rw [boundTo_eq_some_iff] at hb
  rw [isOpen_eq_true_iff] at hopen
  rcases hb with ⟨stream, hstream, hb⟩
  rcases hopen with ⟨stream', hstream', hopen⟩
  rw [hstream, Option.some.injEq] at hstream'
  subst hstream'
  simp [receive, hstream, hopen, hb]

end Anonymous

/--
An event of an anonymous stream that names a client without a mailbox gives it the mailbox of the stream
and is then handled as an event of that client. Any other event leaves the stream anonymous, and all that
changes is that the answer is left in its mailbox if there is room. A stream that belongs to a client
belongs to it for good, and all that arrives on it is handled as events of that client.
-/
theorem anonymous_streams_harmless (testMode : Bool) (limit : Option Nat) (ops : List Operation)
    : let s := (initial testMode limit).run ops
      (∀ i stream e, s.streams[i]? = some stream → stream.isOpen = true → stream.binding = none →
        (∀ b c m, s.Names e b c m →
          let s' := s.attach i stream b c m
          s'.Holds b.console b.clientId i ∧ s'.boundTo i = some b ∧
            s.receive i e = s'.dispatch b e) ∧
        ((∀ b c m, ¬s.Names e b c m) →
          ∃ box, s.room.boxes[i]? = some box ∧
            s.receive i e
              =
            { s with room := ⟨s.room.boxes.set i
              (if box.hasReader = true ∧ box.pending.length < box.capacity then
                { box with pending := box.pending ++ [refusalEvent (s.rebuff e)] }
              else box)⟩ })) ∧
        ∀ i b, s.boundTo i = some b → ∀ later,
          let s' := (initial testMode limit).run (ops ++ later)
          s'.boundTo i = some b ∧ (s'.isOpen i = true → ∀ e, s'.receive i e = s'.dispatch b e) := by
  intro s
  have hs : s.Consistent := consistent_run testMode limit ops
  constructor
  . intro i stream e hstream hopen hanonymous
    constructor
    . intro b c m hn
      exact receive_of_names hs hstream hopen hanonymous hn
    . intro hn
      rcases hs.box hstream with ⟨box, hbox⟩
      refine ⟨box, hbox, ?_⟩
      rw [receive_of_not_names hs hstream hopen hanonymous hn]
      simp [Mailroom.post, hbox, Mailbox.post_eq]
  . intro i b hb later
    dsimp
    have hlater : ((initial testMode limit).run (ops ++ later)).boundTo i = some b := by
      rw [run_append]
      exact boundTo_run hs hb later
    exact ⟨hlater, fun hopen e => receive_of_boundTo hlater hopen⟩

/-- Another client is plugged in, whose stream named the wrong one before. -/
def correction : List Operation :=
  rivals ++ [.plugController { consoleId := 1, port1 := 2 }]

theorem anonymous_streams_harmless_correction
    : let s := (initial false none).run correction
      let ready : OutgoingEvent := { ready := some { consoleId := 1, clientId := 2 } }
      let box : Mailbox :=
        { capacity := 1024, pending := [refusalEvent (refusal 1 .unknown .invalidClient)] }
      s.receive 1 { keys := [{ consoleId := 1, port := 2 }] }
          =
        { s with room := ⟨s.room.boxes.set 1 { box with
          pending := box.pending ++ [refusalEvent (refusal 0 .unknown .clientNotReady)] }⟩ } ∧
        (∃ c m, s.receive 1 ready
          = (s.attach 1 { sink := some 1 } ⟨0, ⟨2⟩⟩ c m).dispatch ⟨0, ⟨2⟩⟩ ready) ∧
        s.receive 0 ready = s.dispatch ⟨0, ⟨1⟩⟩ ready := by
  intro s ready box
  rcases anonymous_streams_harmless false none correction with ⟨hanonymous, hbound⟩
  have hstream : s.streams[1]? = some { sink := some 1 } := by decide +kernel
  have hbox : s.room.boxes[1]? = some box := by decide +kernel
  have hfree : (s.lobby.lookup? ⟨1⟩).any (fun r => r.1 = 0 &&
      (r.2.members.get? ⟨2⟩).any fun m => m.mailbox = none) = true := by decide +kernel
  refine ⟨?_, ?_, ?_⟩
  . rcases (hanonymous 1 _ { keys := [{ consoleId := 1, port := 2 }] } hstream rfl rfl).2
      (fun b c m hn => by simpa using hn.ready) with ⟨box', hbox', heq⟩
    rw [hbox, Option.some.injEq] at hbox'
    subst hbox'
    exact heq
  . simp only [Option.any_eq_true, Bool.and_eq_true, decide_eq_true_eq] at hfree
    rcases hfree with ⟨⟨k, c⟩, hlookup, rfl, m, hm, hnone⟩
    have hid := (Lobby.lookup?_eq_some hlookup).2
    have hn : s.Names ready ⟨0, ⟨2⟩⟩ c m :=
      ⟨⟨_, rfl, by rw [hid], rfl⟩, by rw [hid]; exact hlookup, hm, hnone⟩
    exact ⟨c, m, ((hanonymous 1 _ ready hstream rfl rfl).1 _ c m hn).2.2⟩
  . have hb : s.boundTo 0 = some ⟨0, ⟨1⟩⟩ := by decide +kernel
    have hlater := (hbound 0 _ hb []).2
    rw [List.append_nil] at hlater
    exact hlater (by decide +kernel) ready

end Server
end PadRelay
