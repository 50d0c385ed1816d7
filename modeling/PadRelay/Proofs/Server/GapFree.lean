import PadRelay.Proofs.Server.Delivery
import PadRelay.Proofs.Server.Streams

/-!
This module contains the proof that streams lose nothing in the middle. What is read from a stream is
a prefix of what its client was sent, and it is all of it as long as the client holds the mailbox of the
stream and the stream has a reader.
-/

namespace PadRelay
namespace Server

theorem answered_of_bound {s : Server} (h : s.Consistent) {i : Nat} {b : Binding}
    (hb : s.boundTo i = some b) (a : Act) : s.answered i a = [] := by
  cases a with
  | reply j consoleId status =>
    unfold answered
    dsimp
    split
    . rfl
    . next stream hstream =>
      split
      . rfl
      . next box hsink =>
        rw [if_neg]
        rintro ⟨rfl, _⟩
        rw [boundTo_eq_some_iff] at hb
        rcases hb with ⟨stream', hi, hb⟩
        rw [hstream, Option.some.injEq] at hi
        rw [← hi, (h.sink j stream box hstream hsink).2.1] at hb
        simp at hb
  | _ => rfl

/-- Everything that stream `i` is due in an act, whether it is bound or not. -/
def due (i : Nat) (s : Server) (a : Act) : List IncomingEvent :=
  s.answered i a ++ s.addressed i a

theorem trace_answered_of_bound {s : Server} (h : s.Consistent) {i : Nat} {b : Binding}
    (hb : s.boundTo i = some b) (acts : List Act) : trace (answered i) s acts = [] := by
  induction acts generalizing s with
  | nil => rfl
  | cons a acts ih =>
    unfold trace
    rw [answered_of_bound h hb, ih (consistent_perform h a) (boundTo_perform h hb a)]
    rfl

theorem trace_due {s : Server} (h : s.Consistent) (i : Nat) (acts : List Act)
    : trace (due i) s acts = trace (answered i) s acts ++ trace (addressed i) s acts := by
  induction acts generalizing s with
  | nil => rfl
  | cons a acts ih =>
    have ih := ih (consistent_perform h a)
    have hdue : s.due i a = s.answered i a ++ s.addressed i a := rfl
    unfold trace
    rw [ih, hdue]
    cases hb : s.boundTo i with
    | none =>
      have : s.addressed i a = [] := by simp [addressed, hb]
      simp [this]
    -- From the bind on there are no more answers to an anonymous stream.
    | some b =>
      rw [trace_answered_of_bound (consistent_perform h a) (boundTo_perform h hb a),
        answered_of_bound h hb]
      simp

/-- A mailbox that an act adds is empty. -/
theorem box_perform_of_none {s : Server} (h : s.Consistent) {i : Nat}
    (hi : s.room.boxes[i]? = none) (a : Act) {b : Mailbox}
    (hb : (s.perform a).room.boxes[i]? = some b) : b = { capacity := eventBuffer } := by
  have hlen := (consistent_perform h a).length
  rw [length_streams_perform, ← h.length] at hlen
  have hlt := (List.getElem?_eq_some_iff.1 hb).1
  rw [List.getElem?_eq_none_iff] at hi
  cases a with
  -- Only opening a stream adds a mailbox.
  | openStream =>
    have heq : i = s.room.boxes.length := by
      simp at hlen
      omega
    unfold perform openStream Mailroom.openBox at hb
    dsimp at hb
    rw [heq, List.getElem?_concat_length, Option.some.injEq] at hb
    exact hb.symm
  | _ =>
    simp at hlen
    omega

theorem pending_perform_of_none {s : Server} (h : s.Consistent) {i : Nat}
    (hi : s.room.boxes[i]? = none) (a : Act) {b : Mailbox}
    (hb : (s.perform a).room.boxes[i]? = some b) : b.pending = [] := by
  rw [box_perform_of_none h hi a hb]

theorem due_of_none {s : Server} (h : s.Consistent) {i : Nat} (hi : s.room.boxes[i]? = none)
    (a : Act) : s.due i a = [] ∧ s.received i a = [] := by
  have hstream : s.streams[i]? = none := by
    rw [List.getElem?_eq_none_iff, h.length] at hi
    rw [List.getElem?_eq_none_iff]
    exact hi
  have haddressed : s.addressed i a = [] := by simp [addressed, boundTo, hstream]
  unfold due
  rw [haddressed, List.append_nil]
  constructor
  . cases a with
    | reply j consoleId status =>
      unfold answered
      dsimp
      split
      . rfl
      . next stream hj =>
        have hne : j ≠ i := by
          intro heq
          rw [heq, hstream] at hj
          simp at hj
        simp [hne]
        split <;> rfl
    | _ => rfl
  . cases a with
    | take j n =>
      unfold received
      dsimp
      split
      . next heq => simp [take, Mailroom.take, heq, hi]
      . rfl
    | _ => rfl

/-- What was read from stream `i` and what is pending fits what the stream was due. -/
structure Tracked (s : Server) (i : Nat) (read sent : List IncomingEvent) : Prop where
  unopened : s.room.boxes[i]? = none → read = [] ∧ sent = []
  order : ∀ b, s.room.boxes[i]? = some b → read ++ b.pending <+: sent
  all : ∀ b, s.room.boxes[i]? = some b → s.Live i → b.hasReader = true →
    read ++ b.pending = sent

theorem tracked_perform {s : Server} (h : s.Consistent) {i : Nat} {read sent : List IncomingEvent}
    (ht : s.Tracked i read sent) (a : Act)
    : (s.perform a).Tracked i (read ++ s.received i a) (sent ++ s.due i a) := by
  cases hb : s.room.boxes[i]? with
  | none =>
    rcases ht.unopened hb with ⟨rfl, rfl⟩
    rcases due_of_none h hb a with ⟨hdue, hreceived⟩
    rw [hdue, hreceived]
    constructor
    . simp
    . intro b hb'
      simp [pending_perform_of_none h hb a hb']
    . intro b hb' _ _
      simp [pending_perform_of_none h hb a hb']
  | some b =>
    rcases delivers_perform h a hb with ⟨b', hb', hd⟩
    have horder := ht.order b hb
    have heq : s.answered i a ++ s.addressed i a = s.due i a := rfl
    rw [heq] at hd
    constructor
    . intro hnone
      rw [hb'] at hnone
      simp at hnone
    . intro b'' hb''
      rw [hb', Option.some.injEq] at hb''
      subst hb''
      rw [List.append_assoc]
      -- While the stream is live nothing is missing, so what is due goes right after all that was due
      -- before. Afterwards it is only drained.
      by_cases hlive : s.Live i ∧ b.hasReader = true
      . rw [← ht.all b hb hlive.1 hlive.2, List.append_assoc, List.prefix_append_right_inj]
        exact hd.order
      . have hrest := (hd.rest hlive).1
        rw [← List.prefix_append_right_inj read] at hrest
        exact (hrest.trans horder).trans (List.prefix_append _ _)
    . intro b'' hb'' hlive hread
      rw [hb', Option.some.injEq] at hb''
      subst hb''
      rw [List.append_assoc, hd.all hlive hread, ← List.append_assoc,
        ht.all b hb (hd.live hlive) (hd.reader hread)]

theorem tracked_performAll {s : Server} (h : s.Consistent) {i : Nat}
    {read sent : List IncomingEvent} (ht : s.Tracked i read sent) (acts : List Act)
    : (s.performAll acts).Tracked i (read ++ trace (received i) s acts)
        (sent ++ trace (due i) s acts) := by
  induction acts generalizing s read sent with
  | nil => simpa [trace] using ht
  | cons a acts ih =>
    have := ih (consistent_perform h a) (tracked_perform h ht a)
    rw [List.append_assoc, List.append_assoc] at this
    exact this

theorem drained_performAll {s : Server} (h : s.Consistent) {i : Nat} (hdead : ¬ s.Live i)
    {b : Mailbox} (hb : s.room.boxes[i]? = some b) (acts : List Act)
    : ¬ (s.performAll acts).Live i ∧
        ∃ b', (s.performAll acts).room.boxes[i]? = some b' ∧
          (b'.hasSender = true → b.hasSender = true) ∧
          trace (received i) s acts ++ b'.pending <+: b.pending ∧
          (b'.hasReader = true →
            b.hasReader = true ∧ trace (received i) s acts ++ b'.pending = b.pending) := by
  -- Induction on the acts. A mailbox that nobody can post to does not come to life again.
  induction acts generalizing s b with
  | nil => exact ⟨hdead, b, hb, id, List.prefix_refl _, fun hread => ⟨hread, rfl⟩⟩
  | cons a acts ih =>
    rcases delivers_perform h a hb with ⟨b₁, hb₁, hd⟩
    have hrest := hd.rest fun hlive => hdead hlive.1
    have hdead₁ : ¬ (s.perform a).Live i := fun hlive => hdead (hd.live hlive)
    rcases ih (consistent_perform h a) hdead₁ hb₁ with ⟨hdead₂, b₂, hb₂, hsender, horder, hall⟩
    refine ⟨hdead₂, b₂, hb₂, fun hs => hd.sender (hsender hs), ?_, ?_⟩
    . unfold trace
      rw [List.append_assoc]
      rw [← List.prefix_append_right_inj (s.received i a)] at horder
      exact horder.trans hrest.1
    . intro hread
      rcases hall hread with ⟨hread₁, heq⟩
      unfold trace
      rw [List.append_assoc, heq]
      exact ⟨hd.reader hread₁, hrest.2 hread₁⟩

theorem tracked_initial (testMode : Bool) (limit : Option Nat) (i : Nat)
    : (initial testMode limit).Tracked i [] [] := by
  constructor
  . simp
  . intro b hb
    simp [initial] at hb
  . intro b hb
    simp [initial] at hb

theorem tracked_run (testMode : Bool) (limit : Option Nat) (ops : List Operation) (i : Nat)
    : let s₀ := initial testMode limit
      (s₀.run ops).Tracked i (trace (received i) s₀ (s₀.history ops))
        (trace (due i) s₀ (s₀.history ops)) := by
  intro s₀
  have ht := tracked_performAll (consistent_initial testMode limit)
    (tracked_initial testMode limit i) (s₀.history ops)
  rwa [List.nil_append, List.nil_append, ← run_eq_performAll] at ht

/-- A client is addressed at most one event at a time, and it is no client who reads meanwhile. -/
theorem addressed_of_mem {s : Server} {i : Nat} {a : Act} {e : IncomingEvent}
    (h : e ∈ s.addressed i a) : s.due i a = [e] ∧ s.received i a = [] := by
  have heq : s.addressed i a = [e] := by
    unfold addressed at h ⊢
    split at h
    . simp at h
    . rw [Option.mem_toList] at h
      rw [h]
      rfl
  have hsilent : (∀ k id, s.addresses k id a = none) → s.received i a = [] := by
    intro hnone
    rw [addressed_eq_nil hnone] at heq
    simp at heq
  unfold due
  rw [heq]
  cases a with
  | reply j consoleId status =>
    rw [addressed_eq_nil] at heq
    . simp at heq
    . intro k id
      unfold addresses
      cases s.lobby.console? k <;> rfl
  | take j n =>
    refine ⟨rfl, hsilent ?_⟩
    intro k id
    unfold addresses
    cases s.lobby.console? k <;> rfl
  | _ => exact ⟨rfl, rfl⟩

/-- A client that can not be sent an event is never sent anything again, but the others are. -/
theorem lagging {s : Server} (h : s.Consistent) {a : Act} {k : Nat} {id : ClientId} {i : Nat}
    {b : Mailbox} {e : IncomingEvent} (hholds : s.Holds k id i)
    (hb : s.room.boxes[i]? = some b) (hread : b.hasReader = true)
    (hfull : b.capacity ≤ b.pending.length) (he : e ∈ s.addressed i a) (after : List Act)
    : ¬ (s.performAll (a :: after)).Live i ∧
        ∃ b', (s.performAll (a :: after)).room.boxes[i]? = some b' ∧
          b'.hasSender = false ∧
          trace (received i) s (a :: after) ++ b'.pending <+: b.pending ∧
          (b'.hasReader = true → trace (received i) s (a :: after) ++ b'.pending = b.pending) := by
  rcases delivers_perform h a hb with ⟨b₁, hb₁, hd⟩
  have heq : s.answered i a ++ s.addressed i a = s.due i a := rfl
  rcases addressed_of_mem he with ⟨hdue, hreceived⟩
  rw [heq, hdue] at hd
  rcases hd.full (by simp) (Or.inl ⟨k, id, hholds⟩) hread hfull with ⟨hdead, hsender, hpending⟩
  rcases drained_performAll (consistent_perform h a) hdead hb₁ after with
    ⟨hdead₂, b₂, hb₂, hsender₂, horder, hall⟩
  have hnosender : b₂.hasSender = false := by
    cases hs : b₂.hasSender with
    | false => rfl
    | true => simp [hsender₂ hs] at hsender
  rw [hpending] at horder hall
  refine ⟨hdead₂, b₂, hb₂, hnosender, ?_, ?_⟩
  . unfold trace
    rw [hreceived]
    exact horder
  . intro hread₂
    unfold trace
    rw [hreceived]
    exact (hall hread₂).2

/--
What is read from a stream is what it was refused while it was anonymous, followed by what the console
addresses to the client that it is bound to, up to some point. Nothing is missing as long as the client
holds the stream and somebody reads it. An event that finds the stream full ends it, while the others
still get that event.
-/
theorem delivery_gap_free (testMode : Bool) (limit : Option Nat) (ops : List Operation) (i : Nat)
    : let s₀ := initial testMode limit
      let acts := s₀.history ops
      trace (received i) s₀ acts <+: trace (answered i) s₀ acts ++ trace (addressed i) s₀ acts ∧
        (∀ k id b, (s₀.run ops).Holds k id i → (s₀.run ops).room.boxes[i]? = some b →
          b.hasReader = true →
          trace (received i) s₀ acts ++ b.pending
            =
          trace (answered i) s₀ acts ++ trace (addressed i) s₀ acts) ∧
        ∀ before a after, acts = before ++ a :: after →
          let s := s₀.performAll before
          ∀ k id b e, s.Holds k id i → s.room.boxes[i]? = some b → b.hasReader = true →
            b.capacity ≤ b.pending.length → e ∈ s.addressed i a →
            (∀ k' id', ¬ (s₀.run ops).Holds k' id' i) ∧
            (∃ b', (s₀.run ops).room.boxes[i]? = some b' ∧
              b'.hasSender = false ∧
              trace (received i) s (a :: after) ++ b'.pending <+: b.pending ∧
              (b'.hasReader = true →
                trace (received i) s (a :: after) ++ b'.pending = b.pending)) ∧
            ∀ id' j b', s.Holds k id' j → s.room.boxes[j]? = some b' → b'.hasReader = true →
              b'.pending.length < b'.capacity → e ∈ s.addressed j a →
              ∃ b'', (s.perform a).room.boxes[j]? = some b'' ∧ b''.pending = b'.pending ++ [e] := by
  intro s₀ acts
  have hcons : s₀.Consistent := consistent_initial testMode limit
  have ht := tracked_performAll hcons (tracked_initial testMode limit i) acts
  rw [← run_eq_performAll, trace_due hcons, List.nil_append, List.nil_append] at ht
  refine ⟨?_, ?_, ?_⟩
  . cases hb : (s₀.run ops).room.boxes[i]? with
    | none => simp [ht.unopened hb]
    | some b => exact (List.prefix_append _ _).trans (ht.order b hb)
  . intro k id b hholds hb hread
    exact ht.all b hb (Or.inl ⟨k, id, hholds⟩) hread
  . intro before a after hacts s k id b e hholds hb hread hfull he
    have hs : s.Consistent := consistent_performAll hcons before
    have hrun : s₀.run ops = s.performAll (a :: after) := by
      rw [run_eq_performAll, ← performAll_append, ← hacts]
    rw [hrun]
    rcases lagging hs hholds hb hread hfull he after with ⟨hdead, hdrained⟩
    refine ⟨fun k' id' hh => hdead (Or.inl ⟨k', id', hh⟩), hdrained, ?_⟩
    intro id' j b' hholds' hb' hread' hroom he'
    rcases delivers_perform hs a hb' with ⟨b₁, hb₁, hd⟩
    have heq : s.answered j a ++ s.addressed j a = s.due j a := rfl
    rw [heq, (addressed_of_mem he').1] at hd
    exact ⟨b₁, hb₁, hd.fits (by simp) (Or.inl ⟨k, id', hholds'⟩) hread' hroom⟩

def exchange : List Operation :=
  [.makeConsole {},
    .plugController { consoleId := 1, port1 := 1 },
    .plugController { consoleId := 1, port1 := 2 },
    .openStream,
    .openStream,
    .receive 0 { ready := some { consoleId := 1, clientId := 1 } },
    .receive 1 { ready := some { consoleId := 1, clientId := 2 } },
    .startGame { consoleId := 1 },
    .receive 0 { keys := [{ consoleId := 1, port := 1, frame := 0 }] },
    .take 1 1]

theorem delivery_gap_free_exchange
    : ∃ b, ((initial false none).run exchange).room.boxes[1]? = some b ∧
        b.pending = [{ keys := [{ consoleId := 1, port := 1, frame := 0 }] }] ∧
        trace (received 1) (initial false none) ((initial false none).history exchange) ++ b.pending
          =
        trace (answered 1) (initial false none) ((initial false none).history exchange) ++
          trace (addressed 1) (initial false none) ((initial false none).history exchange) := by
  have hholds : ((((initial false none).run exchange).lobby.console? 0).bind
      fun c => (c.members.get? ⟨2⟩).bind (·.mailbox)) = some 1 := by decide +kernel
  have hbox : ((initial false none).run exchange).room.boxes[1]? = some {
      capacity := eventBuffer
      pending := [{ keys := [{ consoleId := 1, port := 1, frame := 0 }] }] } := by decide +kernel
  simp only [Option.bind_eq_some_iff] at hholds
  rcases hholds with ⟨c, hc, m, hm, hi⟩
  refine ⟨_, hbox, rfl, ?_⟩
  exact (delivery_gap_free false none exchange 1).2.1 0 ⟨2⟩ _ ⟨c, m, hc, hm, hi⟩ hbox rfl

end Server
end PadRelay
