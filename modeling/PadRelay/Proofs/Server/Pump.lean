import PadRelay.Proofs.Server.Anonymous

/-!
This module contains what happens to the mailbox of an event stream, step by step. The reader of an
anonymous stream keeps the mailbox to answer to. It gives the mailbox away before it asks a console to
take it, and takes back what the console does not want. So a stream belongs to a client exactly if its
mailbox is gone, whatever the answers are. The server does the same in one step.
-/

namespace PadRelay

/-- A member takes a mailbox or gives it back. -/
def Member.bindStream (m : Member) (mailbox : Nat) : Except Nat Member :=
  if m.mailbox.isSome then .error mailbox else .ok { m with mailbox := some mailbox }

/-- A mailbox for somebody who is no client of the console comes back as well. -/
def Console.bindStream (c : Console) (id : ClientId) (mailbox : Nat) : Except Nat Console :=
  match c.members.get? id with
  | none => .error mailbox
  | some m => (m.bindStream mailbox).map fun m => { c with members := c.members.insert id m }

/-- What comes back is the mailbox that was given away. -/
theorem Console.bindStream_eq (c : Console) (id : ClientId) (mailbox : Nat)
    : c.bindStream id mailbox
        =
      match c.bind? id mailbox with
      | none => .error mailbox
      | some c => .ok c := by
  unfold bindStream bind?
  cases c.members.get? id with
  | none => rfl
  | some m =>
    unfold Member.bindStream Member.bind?
    dsimp
    cases m.mailbox <;> rfl

/-- A mailbox comes back, or the client has it. -/
theorem Console.bindStream_cases (c : Console) (id : ClientId) (mailbox : Nat)
    : c.bindStream id mailbox = .error mailbox ∨
        ∃ c' m, c.bindStream id mailbox = .ok c' ∧ c'.members.get? id = some m ∧
          m.mailbox = some mailbox := by
  unfold bindStream Member.bindStream
  cases c.members.get? id with
  | none => exact Or.inl rfl
  | some m =>
    dsimp
    split
    . exact Or.inl rfl
    . exact Or.inr ⟨_, _, rfl, SortedMap.get?_insert_self .., rfl⟩

/-- What the reader of an event stream keeps between two events. -/
structure Pump where
  sink : Option Nat
  binding : Option Binding := none

namespace Pump

/-- The console that is found under an identifier, if any, and its position. -/
abbrev Registry := ConsoleId → Option (Nat × Console)

/--
Gives the mailbox to the client that is named. The last component is what the reader has afterwards.
-/
def tryBind (find : Registry) (ready : ClientReady) (sink : Option Nat) :
    Except InvalidDataStatus (Binding × Console) × Option Nat :=
  match find ⟨ready.consoleId⟩ with
  | none => (.error .invalidConsole, sink)
  | some (k, c) =>
    match sink with
    | none => (.error .invalidClient, none)
    | some mailbox =>
      match c.bindStream ⟨ready.clientId⟩ mailbox with
      | .error mailbox => (.error .invalidClient, some mailbox)
      | .ok c => (.ok (⟨k, ⟨ready.clientId⟩⟩, c), none)

/-- An answer on an anonymous stream and the mailbox for it, as far as there is one. -/
def reply (sink : Option Nat) (consoleId : Int64) (status : InvalidDataStatus) :
    Option (Nat × InvalidData) :=
  sink.map fun mailbox => (mailbox, refusal consoleId .unknown status)

/-- The reader after an event, and its answer. Events of a client are passed on to the console. -/
def handle (find : Registry) (p : Pump) (e : OutgoingEvent) : Pump × Option (Nat × InvalidData) :=
  match p.binding with
  | some _ => (p, none)
  | none =>
    match e.ready with
    | none => (p, reply p.sink 0 .clientNotReady)
    | some ready =>
      match tryBind find ready p.sink with
      | (.ok (b, _), sink) => ({ sink, binding := some b }, none)
      | (.error status, sink) => ({ p with sink }, reply sink ready.consoleId status)

/-- The reader of a stream that was just opened. -/
def start (mailbox : Nat) : Pump :=
  { sink := some mailbox }

/-- A reader after some events, each with the consoles that could be found when it arrived. -/
def run (p : Pump) (turns : List (Registry × OutgoingEvent)) : Pump :=
  turns.foldl (fun p turn => (p.handle turn.1 turn.2).1) p

/-- The mailbox is with the reader as long as the stream is anonymous. -/
def Keeps (mailbox : Nat) (p : Pump) : Prop :=
  p.sink = if p.binding.isSome then none else some mailbox

/--
What can come of an announcement and where the mailbox is then: with the reader, or with the client that
was named. There is no outcome for a reader that has no mailbox.
-/
inductive Outcome (find : Registry) (ready : ClientReady) (mailbox : Nat) :
    Except InvalidDataStatus (Binding × Console) × Option Nat → Prop where
  | unknown (hfind : find ⟨ready.consoleId⟩ = none) :
    Outcome find ready mailbox (.error .invalidConsole, some mailbox)
  | declined {k : Nat} {c : Console} (hfind : find ⟨ready.consoleId⟩ = some (k, c))
    (hback : c.bindStream ⟨ready.clientId⟩ mailbox = .error mailbox) :
    Outcome find ready mailbox (.error .invalidClient, some mailbox)
  | taken {k : Nat} {c c' : Console} {m : Member} (hfind : find ⟨ready.consoleId⟩ = some (k, c))
    (htaken : c.bindStream ⟨ready.clientId⟩ mailbox = .ok c')
    (hm : c'.members.get? ⟨ready.clientId⟩ = some m) (hmailbox : m.mailbox = some mailbox) :
    Outcome find ready mailbox (.ok (⟨k, ⟨ready.clientId⟩⟩, c'), none)

section Keeps

variable {find : Registry} {ready : ClientReady} {mailbox : Nat} {p : Pump}

theorem outcome_tryBind (find : Registry) (ready : ClientReady) (mailbox : Nat)
    : Outcome find ready mailbox (tryBind find ready (some mailbox)) := by
  unfold tryBind
  cases hfind : find ⟨ready.consoleId⟩ with
  | none => exact .unknown hfind
  | some r =>
    rcases r with ⟨k, c⟩
    dsimp
    rcases c.bindStream_cases ⟨ready.clientId⟩ mailbox with hback | ⟨c', m, htaken, hm, hmailbox⟩
    . rw [hback]
      exact .declined hfind hback
    . rw [htaken]
      exact .taken hfind htaken hm hmailbox

/-- An announcement that fails leaves the reader with what it had. -/
theorem tryBind_of_error {sink left : Option Nat} {status : InvalidDataStatus}
    (h : tryBind find ready sink = (.error status, left)) : left = sink := by
  cases sink with
  | none =>
    unfold tryBind at h
    split at h <;> exact (Prod.mk.inj h).2.symm
  | some mailbox =>
    have houtcome := outcome_tryBind find ready mailbox
    rw [h] at houtcome
    cases houtcome with
    | unknown => rfl
    | declined => rfl

/-- Without a client, an event is answered or binds the stream. -/
theorem handle_start (find : Registry) (mailbox : Nat) (e : OutgoingEvent)
    : (∃ answer, (start mailbox).handle find e = (start mailbox, some (mailbox, answer))) ∨
        ∃ b, (start mailbox).handle find e = ({ sink := none, binding := some b }, none) := by
  unfold handle start
  dsimp
  cases e.ready with
  | none => exact Or.inl ⟨_, rfl⟩
  | some ready =>
    dsimp
    have houtcome := outcome_tryBind find ready mailbox
    generalize tryBind find ready (some mailbox) = r at houtcome
    cases houtcome with
    | unknown => exact Or.inl ⟨_, rfl⟩
    | declined => exact Or.inl ⟨_, rfl⟩
    | taken => exact Or.inr ⟨_, rfl⟩

theorem Keeps.eq_start (hp : p.Keeps mailbox) (hanonymous : p.binding = none)
    : p = start mailbox := by
  rcases p with ⟨sink, binding⟩
  dsimp at hanonymous
  subst hanonymous
  rw [show sink = some mailbox from hp]
  rfl

theorem Keeps.isSome_iff (hp : p.Keeps mailbox) : p.binding.isSome = true ↔ p.sink = none := by
  rw [hp]
  cases p.binding <;> simp

theorem keeps_start (mailbox : Nat) : (start mailbox).Keeps mailbox := rfl

theorem keeps_handle (hp : p.Keeps mailbox) (find : Registry) (e : OutgoingEvent)
    : (p.handle find e).1.Keeps mailbox := by
  cases hb : p.binding with
  | some b =>
    simp only [handle, hb]
    exact hp
  | none =>
    rw [hp.eq_start hb]
    rcases handle_start find mailbox e with ⟨_, heq⟩ | ⟨_, heq⟩
    all_goals
      rw [heq]
      rfl

theorem keeps_run (hp : p.Keeps mailbox) (turns : List (Registry × OutgoingEvent))
    : (p.run turns).Keeps mailbox := by
  induction turns generalizing p with
  | nil => exact hp
  | cons turn turns ih => exact ih (keeps_handle hp turn.1 turn.2)

theorem run_append (p : Pump) (turns turns' : List (Registry × OutgoingEvent))
    : p.run (turns ++ turns') = (p.run turns).run turns' := by
  simp [run]

end Keeps

end Pump

namespace EventStream

/-- What the reader of a stream keeps. -/
def pump (stream : EventStream) : Pump :=
  { sink := stream.sink, binding := stream.binding }

/-- The stream after its reader has handled something. -/
def after (stream : EventStream) (p : Pump) : EventStream :=
  { stream with sink := p.sink, binding := p.binding }

theorem pump_after (stream : EventStream) (p : Pump) : (stream.after p).pump = p := rfl

end EventStream

namespace Server

section Refinement

variable {s : Server} {i : Nat} {stream : EventStream}

/-- The server binds a stream as the reader does, and the console that took the mailbox is kept. -/
theorem bind?_eq_tryBind (s : Server) (i : Nat) (stream : EventStream) (ready : ClientReady)
    : s.bind? i stream ready
        =
      let r := Pump.tryBind s.lobby.lookup? ready stream.sink
      r.1.map fun (b, c) =>
        (b, { s.setStream i { stream with sink := r.2, binding := some b } with
          lobby := s.lobby.set b.console c }) := by
  unfold bind? Pump.tryBind
  cases s.lobby.lookup? ⟨ready.consoleId⟩ with
  | none => rfl
  | some r =>
    cases stream.sink with
    | none => rfl
    | some mailbox =>
      dsimp
      rw [Console.bindStream_eq]
      cases r.2.bind? ⟨ready.clientId⟩ mailbox <;> rfl

theorem replyAnonymous_of_reply {consoleId : Int64} {status : InvalidDataStatus} {mailbox : Nat}
    {answer : InvalidData}
    (h : Pump.reply stream.sink consoleId status = some (mailbox, answer))
    : s.replyAnonymous stream consoleId status
        =
      { s with room := (s.room.post mailbox (refusalEvent answer)).2 } := by
  unfold Pump.reply at h
  rw [Option.map_eq_some_iff] at h
  rcases h with ⟨_, hsink, heq⟩
  rw [Prod.mk.injEq] at heq
  rcases heq with ⟨rfl, rfl⟩
  unfold replyAnonymous
  rw [hsink]

/-- The server handles an event as the reader does. -/
theorem receive_eq_handle (hstream : s.streams[i]? = some stream) (hopen : stream.isOpen = true)
    (e : OutgoingEvent)
    : let r := stream.pump.handle s.lobby.lookup? e
      (s.receive i e).streams = s.streams.set i (stream.after r.1) ∧
        ∀ mailbox answer, r.2 = some (mailbox, answer) →
          s.receive i e = { s with room := (s.room.post mailbox (refusalEvent answer)).2 } := by
  have hsame : s.streams.set i stream = s.streams := by
    have hlt := (List.getElem?_eq_some_iff.1 hstream).1
    rw [List.getElem?_eq_getElem hlt, Option.some.injEq] at hstream
    rw [← hstream, List.set_getElem_self]
  rcases stream with ⟨sink, binding, isOpen, bytes⟩
  dsimp at hopen
  subst hopen
  unfold receive Pump.handle EventStream.pump EventStream.after
  simp only [hstream, Bool.not_true, Bool.false_eq_true, if_false]
  cases binding with
  | some b =>
    dsimp
    rw [streams_dispatch, hsame]
    exact ⟨rfl, fun _ _ h => by simp at h⟩
  | none =>
    dsimp
    cases e.ready with
    | none =>
      dsimp
      rw [streams_replyAnonymous, hsame]
      exact ⟨rfl, fun _ _ h => replyAnonymous_of_reply h⟩
    | some ready =>
      dsimp
      rw [bind?_eq_tryBind]
      dsimp
      cases hbind : Pump.tryBind s.lobby.lookup? ready sink with
      | mk answer left =>
        cases answer with
        | error status =>
          obtain rfl : left = sink := Pump.tryBind_of_error hbind
          dsimp [Except.map]
          rw [streams_replyAnonymous, hsame]
          exact ⟨rfl, fun _ _ h => replyAnonymous_of_reply h⟩
        | ok r =>
          dsimp [Except.map]
          rw [streams_dispatch]
          exact ⟨rfl, fun _ _ h => by simp at h⟩

end Refinement

/-- The event of an operation that reaches the reader of stream `i`, with the consoles at that time. -/
def turn (s : Server) (i : Nat) : Operation → List (Pump.Registry × OutgoingEvent)
  | .receive j e => if j = i ∧ s.isOpen i = true then [(s.lobby.lookup?, e)] else []
  | _ => []

/-- All events that reach the reader of stream `i`. -/
def turns (s : Server) (i : Nat) : List Operation → List (Pump.Registry × OutgoingEvent)
  | [] => []
  | op :: ops => s.turn i op ++ (s.step op).turns i ops

/-- The reader of stream `i`, also if the stream is yet to be opened. -/
def reader (s : Server) (i : Nat) : Pump :=
  match s.streams[i]? with
  | none => .start i
  | some stream => stream.pump

/-- Stream `i` has not ended. -/
def Unended (s : Server) (i : Nat) : Prop :=
  ∀ stream, s.streams[i]? = some stream → stream.isOpen = true

section History

variable {s : Server} {i : Nat}

theorem receive_of_not_isOpen (hopen : s.isOpen i = false) (e : OutgoingEvent)
    : s.receive i e = s := by
  unfold isOpen at hopen
  unfold receive
  cases hstream : s.streams[i]? with
  | none => rfl
  | some stream =>
    rw [hstream, Option.any_some] at hopen
    simp [hopen]

theorem streams_step_cases (s : Server) (op : Operation)
    : ((s.step op).streams = s.streams ∧ ∀ i, s.turn i op = []) ∨
        op = .openStream ∨
        (∃ j e stream, op = .receive j e ∧ s.streams[j]? = some stream ∧ stream.isOpen = true) ∨
        ∃ j stream, op = .endStream j ∧ s.streams[j]? = some stream ∧
          (s.step op).streams
            =
          s.streams.set j { stream with sink := none, isOpen := false, partialFrame := [] } := by
  cases op with
  | openStream => exact Or.inr (Or.inl rfl)
  | receive j e =>
    cases hopen : s.isOpen j with
    | true =>
      rcases isOpen_eq_true_iff.1 hopen with ⟨stream, hstream, hopen⟩
      exact Or.inr (Or.inr (Or.inl ⟨j, e, stream, rfl, hstream, hopen⟩))
    | false =>
      refine Or.inl ⟨congrArg streams (receive_of_not_isOpen hopen e), ?_⟩
      intro i
      unfold turn
      apply if_neg
      rintro ⟨rfl, hopen'⟩
      rw [hopen] at hopen'
      simp at hopen'
  | endStream j =>
    rw [step_eq_performAll]
    rcases acts_endStream s j with hacts | ⟨hopen, hacts⟩
    . rw [hacts]
      exact Or.inl ⟨rfl, fun _ => rfl⟩
    . rcases isOpen_eq_true_iff.1 hopen with ⟨stream, hstream, _⟩
      refine Or.inr (Or.inr (Or.inr ⟨j, stream, rfl, hstream, ?_⟩))
      rcases hacts with hacts | hacts
      all_goals
        rw [hacts]
        exact streams_closeStream hstream
  | makeConsole request =>
    refine Or.inl ⟨?_, fun _ => rfl⟩
    unfold step makeConsole
    dsimp
    split <;> rfl
  | plugController request =>
    refine Or.inl ⟨?_, fun _ => rfl⟩
    unfold step plugController
    dsimp
    split
    . rfl
    . split <;> rfl
  | startGame request =>
    refine Or.inl ⟨?_, fun _ => rfl⟩
    unfold step startGame
    dsimp
    split
    . rfl
    . split <;> rfl
  | shutDown request =>
    refine Or.inl ⟨?_, fun _ => rfl⟩
    unfold step shutDownServer
    dsimp
    split <;> rfl
  | take j n => exact Or.inl ⟨rfl, fun _ => rfl⟩
  | stopListening j => exact Or.inl ⟨rfl, fun _ => rfl⟩

theorem reader_of_getElem? {stream : EventStream} (h : s.streams[i]? = some stream)
    : s.reader i = stream.pump := by
  unfold reader
  rw [h]

theorem reader_of_streams {s' : Server} (h : s'.streams[i]? = s.streams[i]?)
    : s'.reader i = s.reader i := by
  unfold reader
  rw [h]

theorem unended_of_streams {s' : Server} (h : s'.streams[i]? = s.streams[i]?)
    (hunended : s'.Unended i) : s.Unended i := by
  unfold Unended
  rw [← h]
  exact hunended

/-- A stream starts with a reader that has its mailbox. -/
theorem reader_openStream (h : s.Consistent) (i : Nat) : s.openStream.reader i = s.reader i := by
  have hopened := getElem?_streams_openStream s i
  by_cases heq : i = s.streams.length
  . subst heq
    have hbox : s.room.nextBox = s.streams.length := h.length
    have hnone : s.streams[s.streams.length]? = none := by simp
    rw [if_pos rfl, hbox] at hopened
    simp only [reader, hopened, hnone]
    rfl
  . rw [if_neg heq] at hopened
    exact reader_of_streams hopened

theorem unended_of_openStream (hunended : s.openStream.Unended i) : s.Unended i := by
  intro stream hstream
  apply hunended
  have hlt := (List.getElem?_eq_some_iff.1 hstream).1
  rw [getElem?_streams_openStream, if_neg (by omega), hstream]

theorem reader_receive {stream : EventStream} (hstream : s.streams[i]? = some stream)
    (hopen : stream.isOpen = true) (e : OutgoingEvent)
    : (s.receive i e).reader i = ((s.reader i).handle s.lobby.lookup? e).1 := by
  have hlt := (List.getElem?_eq_some_iff.1 hstream).1
  have hafter : (s.receive i e).streams[i]?
      = some (stream.after (stream.pump.handle s.lobby.lookup? e).1) := by
    rw [(receive_eq_handle hstream hopen e).1, List.getElem?_set_self hlt]
  rw [reader_of_getElem? hstream, reader_of_getElem? hafter, EventStream.pump_after]

theorem unended_of_isOpen (hopen : s.isOpen i = true) : s.Unended i := by
  rcases isOpen_eq_true_iff.1 hopen with ⟨stream, hstream, hopen⟩
  intro stream' hstream'
  rw [hstream, Option.some.injEq] at hstream'
  rw [← hstream', hopen]

/-- The reader of a stream that goes on has handled what reached it, and it went on before. -/
theorem reader_step (h : s.Consistent) {op : Operation} (hunended : (s.step op).Unended i)
    : s.Unended i ∧ (s.step op).reader i = (s.reader i).run (s.turn i op) := by
  rcases streams_step_cases s op with ⟨hstreams, hturn⟩ | rfl | ⟨j, e, stream, rfl, hstream, hopen⟩ |
    ⟨j, stream, rfl, hstream, hstreams⟩
  . have hsame : (s.step op).streams[i]? = s.streams[i]? := by rw [hstreams]
    rw [hturn]
    exact ⟨unended_of_streams hsame hunended, reader_of_streams hsame⟩
  . exact ⟨unended_of_openStream hunended, reader_openStream h i⟩
  . by_cases heq : j = i
    . subst heq
      have hj : s.isOpen j = true := isOpen_eq_true_iff.2 ⟨stream, hstream, hopen⟩
      have hturn : s.turn j (.receive j e) = [(s.lobby.lookup?, e)] := by simp [turn, hj]
      rw [hturn]
      exact ⟨unended_of_isOpen hj, reader_receive hstream hopen e⟩
    . have hsame : (s.receive j e).streams[i]? = s.streams[i]? := by
        rw [(receive_eq_handle hstream hopen e).1, List.getElem?_set_ne heq]
      have hturn : s.turn i (.receive j e) = [] := by simp [turn, heq]
      rw [hturn]
      exact ⟨unended_of_streams hsame hunended, reader_of_streams hsame⟩
  . by_cases heq : j = i
    . subst heq
      have hlt := (List.getElem?_eq_some_iff.1 hstream).1
      have hclosed := hunended _ (by rw [hstreams, List.getElem?_set_self hlt])
      simp at hclosed
    . have hsame : (s.step (.endStream j)).streams[i]? = s.streams[i]? := by
        rw [hstreams, List.getElem?_set_ne heq]
      exact ⟨unended_of_streams hsame hunended, reader_of_streams hsame⟩

theorem reader_run (h : s.Consistent) {ops : List Operation} (hunended : (s.run ops).Unended i)
    : s.Unended i ∧ (s.run ops).reader i = (s.reader i).run (s.turns i ops) := by
  induction ops generalizing s with
  | nil => exact ⟨hunended, rfl⟩
  | cons op ops ih =>
    rcases ih (consistent_step h op) hunended with ⟨hunended, hops⟩
    rcases reader_step h hunended with ⟨hunended, hop⟩
    refine ⟨hunended, ?_⟩
    rw [run_cons, hops, hop, turns, Pump.run_append]

end History

/--
The reader of an event stream has the mailbox to answer to exactly as long as the stream is anonymous,
whatever arrives and whatever the consoles say. So no announcement fails because there is no mailbox, and
none that fails costs the reader its mailbox: a stream that stays anonymous is always answered. What the
server knows of a stream is what its reader has after all events that arrived, and an answer is left in
the mailbox of the stream if there is room.
-/
theorem mailbox_kept_while_anonymous (testMode : Bool) (limit : Option Nat) (ops : List Operation)
    : (∀ mailbox turns,
        let p := (Pump.start mailbox).run turns
        (p.binding.isSome = true ↔ p.sink = none) ∧
          (p.binding = none →
            p.sink = some mailbox ∧
              (∀ find ready, Pump.Outcome find ready mailbox (Pump.tryBind find ready p.sink)) ∧
              ∀ find e, (p.handle find e).1.binding = none →
                ∃ answer, p.handle find e = (p, some (mailbox, answer)))) ∧
        let s := (initial testMode limit).run ops
        ∀ i stream, s.streams[i]? = some stream → stream.isOpen = true →
          stream.pump = (Pump.start i).run ((initial testMode limit).turns i ops) ∧
            ∀ e answer, (stream.pump.handle s.lobby.lookup? e).2 = some (i, answer) →
              ∃ box, s.room.boxes[i]? = some box ∧
                s.receive i e
                  =
                { s with room := ⟨s.room.boxes.set i
                  (if box.hasReader = true ∧ box.pending.length < box.capacity then
                    { box with pending := box.pending ++ [refusalEvent answer] }
                  else box)⟩ } := by
  constructor
  . intro mailbox turns p
    have hp : p.Keeps mailbox := Pump.keeps_run (Pump.keeps_start mailbox) turns
    refine ⟨hp.isSome_iff, ?_⟩
    intro hanonymous
    rw [hp.eq_start hanonymous]
    refine ⟨rfl, fun find ready => Pump.outcome_tryBind find ready mailbox, ?_⟩
    intro find e hstill
    rcases Pump.handle_start find mailbox e with hanswer | ⟨b, heq⟩
    . exact hanswer
    . rw [heq] at hstill
      simp at hstill
  . intro s i stream hstream hopen
    have hs : s.Consistent := consistent_run testMode limit ops
    constructor
    . have hunended := unended_of_isOpen (isOpen_eq_true_iff.2 ⟨stream, hstream, hopen⟩)
      have hreader := (reader_run (consistent_initial testMode limit) hunended).2
      rw [reader_of_getElem? hstream] at hreader
      exact hreader
    . intro e answer hanswer
      rcases hs.box hstream with ⟨box, hbox⟩
      refine ⟨box, hbox, ?_⟩
      rw [(receive_eq_handle hstream hopen e).2 i answer hanswer]
      simp [Mailroom.post, hbox, Mailbox.post_eq]

/-- A stream whose announcement was refused is answered again. -/
theorem mailbox_kept_while_anonymous_correction
    : let s := (initial false none).run correction
      let stream : EventStream := { sink := some 1 }
      let keys : OutgoingEvent := { keys := [{ consoleId := 1, port := 2 }] }
      let answer := refusal 0 .unknown .clientNotReady
      let box : Mailbox :=
        { capacity := 1024, pending := [refusalEvent (refusal 1 .unknown .invalidClient)] }
      s.streams[1]? = some stream ∧
        stream.pump = (Pump.start 1).run ((initial false none).turns 1 correction) ∧
        stream.pump.handle s.lobby.lookup? keys = (stream.pump, some (1, answer)) ∧
        s.receive 1 keys
          =
        { s with room := ⟨s.room.boxes.set 1 { box with
          pending := box.pending ++ [refusalEvent answer] }⟩ } := by
  intro s stream keys answer box
  rcases mailbox_kept_while_anonymous false none correction with ⟨hreaders, hstreams⟩
  have hstream : s.streams[1]? = some stream := by decide +kernel
  have hbox : s.room.boxes[1]? = some box := by decide +kernel
  rcases hstreams 1 stream hstream rfl with ⟨hpump, hposted⟩
  have hreader := (hreaders 1 ((initial false none).turns 1 correction)).2
  rw [← hpump] at hreader
  have hanswer : stream.pump.handle s.lobby.lookup? keys = (stream.pump, some (1, answer)) := by
    rcases (hreader rfl).2.2 s.lobby.lookup? keys rfl with ⟨answer', heq⟩
    rw [heq]
    cases heq
    rfl
  refine ⟨hstream, hpump, hanswer, ?_⟩
  rcases hposted keys answer (by rw [hanswer]) with ⟨box', hbox', heq⟩
  rw [hbox, Option.some.injEq] at hbox'
  subst hbox'
  exact heq

end Server

end PadRelay
