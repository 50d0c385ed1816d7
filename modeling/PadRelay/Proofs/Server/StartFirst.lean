import PadRelay.Proofs.Server.Layout
import PadRelay.Proofs.Server.Provenance
import PadRelay.Proofs.Server.Statuses

/-!
This module contains the proof that the start event comes first. Who is bound to a console that has not
been started yet is sent keys only after the start event, unless another client sends them before the
start. The server relays such keys at once and does not ask whether the console was started.
-/

namespace PadRelay
namespace Server

theorem append_eq_append_cons {α : Type} {l l' front back : List α} {x : α}
    (h : l ++ l' = front ++ x :: back)
    : (∃ rest, l = front ++ x :: rest) ∨ ∃ rest, front = l ++ rest ∧ l' = rest ++ x :: back := by
  rw [List.append_eq_append_iff] at h
  rcases h with ⟨rest, hfront, hl'⟩ | ⟨rest, hl, hrest⟩
  . exact Or.inr ⟨rest, hfront, hl'⟩
  . cases rest with
    | nil => exact Or.inr ⟨[], by rw [hl, List.append_nil, List.append_nil], hrest.symm⟩
    | cons y rest =>
      rw [List.cons_append, List.cons.injEq] at hrest
      exact Or.inl ⟨rest, by rw [hl, hrest.1]⟩

/-- An event of a whole run belongs to one operation, and what comes before it to the ones before. -/
theorem trace_history_split {f : Server → Act → List IncomingEvent} {s : Server}
    {ops : List Operation} {front back : List IncomingEvent} {e : IncomingEvent}
    (h : trace f s (s.history ops) = front ++ e :: back)
    : ∃ before op after front' back', ops = before ++ op :: after ∧
        front = trace f s (s.history before) ++ front' ∧
        trace f (s.run before) ((s.run before).acts op) = front' ++ e :: back' := by
  induction ops generalizing s front with
  | nil => simp [history, trace] at h
  | cons op ops ih =>
    unfold history at h
    rw [trace_append, ← step_eq_performAll] at h
    rcases append_eq_append_cons h with ⟨rest, hop⟩ | ⟨rest, rfl, hrest⟩
    . exact ⟨[], op, ops, front, rest, rfl, rfl, hop⟩
    . rcases ih hrest with ⟨before, op', after, front', back', rfl, rfl, hop⟩
      refine ⟨op :: before, op', after, front', back', rfl, ?_, hop⟩
      rw [history, trace_append, ← step_eq_performAll, List.append_assoc]

section Outbox

variable {s : Server} {i : Nat} {read sent : List IncomingEvent} {b : Mailbox}

theorem Tracked.outbox (ht : s.Tracked i read sent) : read ++ s.room.pending i <+: sent := by
  unfold Mailroom.pending
  cases hb : s.room.boxes[i]? with
  | none => simp [ht.unopened hb]
  | some b => exact ht.order b hb

/-- Nothing is added to a stream that nobody can post to. -/
theorem Tracked.outbox_of_not_live (ht : s.Tracked i read sent) (h : s.Consistent)
    (hdead : ¬ s.Live i) (hb : s.room.boxes[i]? = some b) (ops : List Operation)
    : read ++ trace (received i) s (s.history ops) ++ (s.run ops).room.pending i <+: sent := by
  rw [run_eq_performAll]
  rcases drained_performAll h hdead hb (s.history ops) with ⟨_, b', hb', _, horder, _⟩
  have hpending : (s.performAll (s.history ops)).room.pending i = b'.pending := by
    simp [Mailroom.pending, hb']
  rw [hpending, List.append_assoc]
  rw [← List.prefix_append_right_inj read] at horder
  exact horder.trans (ht.order b hb)

end Outbox

section Start

variable {s : Server} {i k : Nat} {id : ClientId} {c c' : Console} {a : Act}
variable {sent : List IncomingEvent}

theorem Changes.started (hchanges : s.Changes k c a c') (hcreated : c.status = .created)
    (hstarted : c'.status ≠ .created) : (a = .start k ∧ c.allReady = true) ∨ a = .stop k := by
  cases hchanges with
  | plug => exact absurd hcreated hstarted
  | start _ hready => exact Or.inl ⟨rfl, hready⟩
  | stop => exact Or.inr rfl
  | bind => exact absurd hcreated hstarted
  | handle =>
    rw [Console.status_handle] at hstarted
    exact absurd hcreated hstarted
  | @close _ leaver =>
    rcases Console.status_streamClosed c leaver s.room with hsame | ⟨hpowered, _⟩
    . rw [hsame] at hstarted
      exact absurd hcreated hstarted
    . rw [hcreated] at hpowered
      simp at hpowered

theorem started_run (hc : s.lobby.console? k = some c) (hstarted : c.status ≠ .created)
    (ops : List Operation) : ∃ c', (s.run ops).lobby.console? k = some c' ∧ c'.status ≠ .created := by
  apply run_induction (P := fun s => ∃ c, s.lobby.console? k = some c ∧ c.status ≠ .created)
  . rintro s a ⟨c, hc, hstarted⟩
    exact console?_perform_of_started hc hstarted a
  . exact ⟨c, hc, hstarted⟩

theorem due_start (hb : s.boundTo i = some ⟨k, id⟩) (hc : s.lobby.console? k = some c)
    (hcreated : c.status = .created) (hready : c.allReady = true)
    : s.due i (.start k) = [c.startEvent] := by
  have hnone : s.answered i (.start k) = [] := rfl
  unfold due addressed
  rw [hnone, hb]
  simp [addresses_start, hc, hcreated, hready]

theorem not_live_stop (h : s.Consistent) (hb : s.boundTo i = some ⟨k, id⟩)
    (hc : s.lobby.console? k = some c) : ¬ (s.perform (.stop k)).Live i := by
  have hc' : (s.perform (.stop k)).lobby.console? k = some (c.stop s.room).1 := by
    simp only [perform, hc]
    exact Lobby.console?_set_self hc _
  rw [(consistent_perform h _).live_iff_of_bound (boundTo_perform h hb (.stop k))]
  intro hholds
  rcases member_of_holds hholds hc' with ⟨m, hm, hi⟩
  rw [(Console.serves_stop (h.separate hc) s.room).member, Option.map_eq_some_iff] at hm
  rcases hm with ⟨m', _, rfl⟩
  simp [Member.undergo, Member.mailbox_leave] at hi

/--
Stream `i` has been due a start event, unless the console at position `k` has not been started or nobody
can post to the stream any more.
-/
def Informed (s : Server) (i k : Nat) (sent : List IncomingEvent) : Prop :=
  (∃ c, s.lobby.console? k = some c ∧ c.status = .created) ∨
    (∃ start ∈ sent, start.start ≠ none) ∨ ¬ s.Live i

theorem Informed.perform (hinf : s.Informed i k sent) (h : s.Consistent)
    (hb : s.boundTo i = some ⟨k, id⟩) (a : Act)
    : (s.perform a).Informed i k (sent ++ s.due i a) := by
  rcases hinf with ⟨c, hc, hcreated⟩ | ⟨start, hmem, hstart⟩ | hdead
  . rcases console?_perform_of_some hc a with ⟨c', hc', rfl | hchanges⟩
    . exact Or.inl ⟨c', hc', hcreated⟩
    . by_cases hcreated' : c'.status = .created
      . exact Or.inl ⟨c', hc', hcreated'⟩
      -- A console is started, and then all its clients are told, or it is stopped before that.
      . rcases hchanges.started hcreated hcreated' with ⟨rfl, hready⟩ | rfl
        . rw [due_start hb hc hcreated hready]
          refine Or.inr (Or.inl ⟨c.startEvent, by simp, ?_⟩)
          simp [Console.startEvent]
        . exact Or.inr (Or.inr (not_live_stop h hb hc))
  . exact Or.inr (Or.inl ⟨start, List.mem_append_left _ hmem, hstart⟩)
  . rcases boundTo_eq_some_iff.1 hb with ⟨stream, hstream, _⟩
    rcases h.box hstream with ⟨b, hbox⟩
    exact Or.inr (Or.inr (drained_performAll h hdead hbox [a]).1)

theorem Informed.performAll (hinf : s.Informed i k sent) (h : s.Consistent)
    (hb : s.boundTo i = some ⟨k, id⟩) (acts : List Act)
    : (s.performAll acts).Informed i k (sent ++ trace (due i) s acts) := by
  induction acts generalizing s sent with
  | nil => simpa [trace] using hinf
  | cons a acts ih =>
    have := ih (hinf.perform h hb a) (consistent_perform h a) (boundTo_perform h hb a)
    rw [List.append_assoc] at this
    exact this

theorem Informed.run (h : s.Consistent) {ops : List Operation}
    (hinf : (s.run ops).Informed i k (trace (due i) s (s.history ops)))
    (hb : (s.run ops).boundTo i = some ⟨k, id⟩) (more : List Operation)
    : (s.run (ops ++ more)).Informed i k (trace (due i) s (s.history (ops ++ more))) := by
  have hs : (s.run ops).Consistent := by
    rw [run_eq_performAll]
    exact consistent_performAll h _
  have := hinf.performAll hs hb ((s.run ops).history more)
  rw [run_append, trace_history_append]
  rwa [← run_eq_performAll] at this

/--
If the console was started after stream `i` was bound, the stream was due a start event or nobody can
post to it any more.
-/
theorem informed_of_started (h : s.Consistent) {ops later before after : List Operation}
    (hops : ops ++ later = before ++ after) (hb : (s.run ops).boundTo i = some ⟨k, id⟩)
    (hc : (s.run ops).lobby.console? k = some c) (hcreated : c.status = .created)
    (hc' : (s.run before).lobby.console? k = some c') (hstarted : c'.status ≠ .created)
    : (∃ start ∈ trace (due i) s (s.history before), start.start ≠ none) ∨
        ¬ (s.run before).Live i := by
  rcases List.append_eq_append_iff.1 hops with ⟨more, rfl, _⟩ | ⟨more, rfl, _⟩
  . rcases Informed.run h (Or.inl ⟨c, hc, hcreated⟩) hb more with ⟨c'', hc'', hcreated'⟩ | hinf
    . rw [hc', Option.some.injEq] at hc''
      rw [hc''] at hstarted
      exact absurd hcreated' hstarted
    . exact hinf
  . rcases started_run hc' hstarted more with ⟨c'', hc'', hstarted'⟩
    rw [← run_append, hc, Option.some.injEq] at hc''
    rw [← hc''] at hstarted'
    exact absurd hcreated hstarted'

/-- What a stream is sent after the console was started comes after a start event. -/
theorem start_mem_of_started (h : s.Consistent) {ops later before after : List Operation}
    {back : List IncomingEvent} {e : IncomingEvent} (hops : ops ++ later = before ++ after)
    (hb : (s.run ops).boundTo i = some ⟨k, id⟩) (hc : (s.run ops).lobby.console? k = some c)
    (hcreated : c.status = .created) (hbefore : (s.run before).boundTo i = some ⟨k, id⟩)
    (hc' : (s.run before).lobby.console? k = some c') (hstarted : c'.status ≠ .created)
    (ht : (s.run before).Tracked i (trace (received i) s (s.history before))
      (trace (due i) s (s.history before)))
    (hout : trace (received i) s (s.history (ops ++ later)) ++ (s.run (ops ++ later)).room.pending i
      = trace (due i) s (s.history before) ++ e :: back)
    : ∃ start ∈ trace (due i) s (s.history before), start.start ≠ none := by
  have hs : (s.run before).Consistent := by
    rw [run_eq_performAll]
    exact consistent_performAll h _
  rcases informed_of_started h hops hb hc hcreated hc' hstarted with hstart | hdead
  . exact hstart
  -- Nothing is added to a stream that nobody can post to, so this event is not part of it.
  . rcases boundTo_eq_some_iff.1 hbefore with ⟨stream, hstream, _⟩
    rcases hs.box hstream with ⟨b, hbox⟩
    have hcut := ht.outbox_of_not_live hs hdead hbox after
    rw [← trace_history_append, ← run_append, ← hops, hout] at hcut
    have := hcut.length_le
    rw [List.length_append, List.length_cons] at this
    omega

end Start

section Relayed

variable {s : Server} {i j k : Nat} {id : ClientId} {e : IncomingEvent}

theorem length_trace_receive_le (s : Server) (i j : Nat) (event : OutgoingEvent)
    : (trace (due i) s (s.acts (.receive j event))).length ≤ 1 := by
  have hbind : ∀ ready, s.due i (.bind j ready) = [] := by
    intro ready
    have hnone : s.answered i (.bind j ready) = [] := rfl
    unfold due
    rw [hnone, addressed_eq_nil]
    . rfl
    . intro k id
      unfold addresses
      cases s.lobby.console? k <;> rfl
  unfold acts
  dsimp
  repeat' split
  all_goals simp [trace, hbind, length_due_le]

/-- Keys that a stream is due arrived on the stream of another client of the same console. -/
theorem relayed_of_split (h : s.Consistent) {op : Operation} {front back : List IncomingEvent}
    (hb : ∀ b, (s.step op).boundTo i = some b → b = ⟨k, id⟩)
    (hop : trace (due i) s (s.acts op) = front ++ e :: back) (hkeys : e.keys ≠ [])
    : front = [] ∧ s.boundTo i = some ⟨k, id⟩ ∧
        ∃ j event sender, op = .receive j event ∧ e = { keys := event.keys } ∧ sender ≠ id ∧
          (s.step op).boundTo j = some ⟨k, sender⟩ := by
  have he : e ∈ trace (due i) s (s.acts op) := by
    rw [hop]
    simp
  rcases forwards_step h he hkeys with ⟨j, event, k', sender, receiver, rfl, rfl, hf⟩
  have htarget := hb _ hf.target
  rw [Binding.mk.injEq] at htarget
  rcases htarget with ⟨rfl, rfl⟩
  have hother : sender ≠ receiver := fun heq => hf.other heq.symm
  refine ⟨?_, ?_, j, event, sender, rfl, rfl, hother, hf.origin⟩
  . have hlen := length_trace_receive_le s i j event
    rw [hop] at hlen
    rw [List.length_append, List.length_cons] at hlen
    rw [← List.length_eq_zero_iff]
    omega
  -- A stream that is bound by the event itself is the one that the event arrived on.
  . rcases boundTo_step_cases hf.target with hbefore | ⟨_, _, _, _, heq, _⟩
    . exact hbefore
    . rw [Operation.receive.injEq] at heq
      rcases heq with ⟨rfl, _⟩
      have horigin := hb _ hf.origin
      rw [Binding.mk.injEq] at horigin
      exact absurd horigin.2 hother

end Relayed

/--
On a stream that was bound before its console was started all keys come after the start event of that
console, of which there is only one, except those that another client of the console sends before it is
started: they are relayed at once, right after what the stream was due until then.
-/
theorem start_precedes_keys (testMode : Bool) (limit : Option Nat) (ops later : List Operation)
    {i k : Nat} {id : ClientId} {c : Console}
    (hb : ((initial testMode limit).run ops).boundTo i = some ⟨k, id⟩)
    (hc : ((initial testMode limit).run ops).lobby.console? k = some c)
    (hcreated : c.status = .created)
    : let s₀ := initial testMode limit
      let acts := s₀.history (ops ++ later)
      ∀ front e back,
        trace (received i) s₀ acts ++ (s₀.run (ops ++ later)).room.pending i = front ++ e :: back →
        e.keys ≠ [] →
        (∃ start ∈ front, start.start ≠ none ∧ trace (launched k) s₀ acts = [start]) ∨
          ∃ before j event after sender c', ops ++ later = before ++ .receive j event :: after ∧
            front = trace (due i) s₀ (s₀.history before) ∧ e = { keys := event.keys } ∧
            sender ≠ id ∧ (s₀.run (before ++ [.receive j event])).boundTo j = some ⟨k, sender⟩ ∧
            (s₀.run before).lobby.console? k = some c' ∧ c'.status = .created := by
  intro s₀ acts front e back hout hkeys
  have hcons : s₀.Consistent := consistent_initial testMode limit
  have hend : (s₀.run (ops ++ later)).boundTo i = some ⟨k, id⟩ := by
    rw [run_append]
    exact boundTo_run (consistent_run testMode limit ops) hb later
  have hprefix := (tracked_run testMode limit (ops ++ later) i).outbox
  rw [hout] at hprefix
  rcases hprefix with ⟨rest, hrest⟩
  rw [List.append_assoc, List.cons_append] at hrest
  rcases trace_history_split hrest.symm with ⟨before, op, after, front', back', hops, hfront, hop⟩
  have hs : (s₀.run before).Consistent := consistent_run testMode limit before
  have hstep : ∀ b, ((s₀.run before).step op).boundTo i = some b → b = ⟨k, id⟩ := by
    intro b hb'
    have := boundTo_run (consistent_step hs op) hb' after
    rw [← run_cons, ← run_append, ← hops, hend, Option.some.injEq] at this
    exact this.symm
  rcases relayed_of_split hs hstep hop hkeys with
    ⟨rfl, hbefore, j, event, sender, rfl, rfl, hother, horigin⟩
  rw [List.append_nil] at hfront
  rcases hs.bound i _ hbefore with ⟨c', _, hc', _⟩
  by_cases hcreated' : c'.status = .created
  . refine Or.inr ⟨before, j, event, after, sender, c', hops, hfront, rfl, hother, ?_, hc', hcreated'⟩
    rw [run_append]
    exact horigin
  . left
    rw [hfront] at hout ⊢
    rcases start_mem_of_started hcons hops hb hc hcreated hbefore hc' hcreated'
      (tracked_run testMode limit before i) hout with ⟨start, hmem, hstart⟩
    have hdue : start ∈ trace (due i) s₀ acts := by
      rw [← hrest, hfront]
      exact List.mem_append_left _ hmem
    rcases launched_of_due hcons hdue hstart with ⟨b, hb', hlaunched⟩
    rw [← run_eq_performAll, hend, Option.some.injEq] at hb'
    rw [← hb'] at hlaunched
    exact ⟨start, hmem, hstart, hlaunched⟩

/-- The second player is sent the start event and then the keys of the first. -/
theorem start_precedes_keys_exchange
    : let s₀ := initial false none
      let keys : IncomingEvent := { keys := [{ consoleId := 1, port := 1, frame := 0 }] }
      ∃ start, start.start ≠ none ∧
        trace (received 1) s₀ (s₀.history exchange) ++ (s₀.run exchange).room.pending 1
          = [start, keys] ∧
        trace (launched 0) s₀ (s₀.history exchange) = [start] := by
  intro s₀ keys
  have hbound : (s₀.run (exchange.take 7)).boundTo 1 = some ⟨0, ⟨2⟩⟩ := by decide +kernel
  have hcreated : ((s₀.run (exchange.take 7)).lobby.console? 0).any (·.status = .created) = true := by
    decide +kernel
  have hout : trace (received 1) s₀ (s₀.history exchange) ++ (s₀.run exchange).room.pending 1
      = [{ start := some { consoleId := 1, ports := [{ port := 1 }, { port := 2 }] } }] ++ [keys] := by
    decide +kernel
  have hunstarted : ∀ n < 11, ((s₀.run (exchange.take n)).lobby.console? 0).all
      (fun c => !decide (c.status = .created)) = true ∨
        trace (due 1) s₀ (s₀.history (exchange.take n)) = [] := by
    decide +kernel
  simp only [Option.any_eq_true, decide_eq_true_eq] at hcreated
  rcases hcreated with ⟨c, hc, hcreated⟩
  rcases start_precedes_keys false none (exchange.take 7) (exchange.drop 7) hbound hc hcreated
    _ keys [] (by rw [List.take_append_drop]; exact hout) (by decide) with
    ⟨start, hmem, hstart, hlaunched⟩ |
    ⟨before, j, event, after, _, c', hops, hfront, _, _, _, hc', hcreated'⟩
  . rw [List.mem_singleton] at hmem
    rw [← hmem] at hout
    rw [List.take_append_drop] at hlaunched
    exact ⟨start, hstart, hout, hlaunched⟩
  . rw [List.take_append_drop] at hops
    have hbefore : exchange.take before.length = before := by rw [hops, List.take_left]
    have hlen : before.length < 11 := by
      have := congrArg List.length hops
      simp [exchange] at this
      omega
    have hcase := hunstarted before.length hlen
    rw [hbefore, hc', ← hfront] at hcase
    simp [hcreated'] at hcase

/-- A host who is early: keys arrive on the first stream before the game has started. -/
def eager : List Operation :=
  exchange.take 7 ++ [.receive 0 { keys := [{ consoleId := 1, port := 1, frame := 0 }] }]

theorem not_start_precedes_keys
    : ¬ ∀ testMode limit ops i b front e back,
        let s₀ := initial testMode limit
        (s₀.run ops).boundTo i = some b →
          trace (received i) s₀ (s₀.history ops) ++ (s₀.run ops).room.pending i
            = front ++ e :: back →
          e.keys ≠ [] → ∃ start ∈ front, start.start ≠ none := by
  intro hall
  rcases hall false none eager 1 ⟨0, ⟨2⟩⟩ []
    { keys := [{ consoleId := 1, port := 1, frame := 0 }] } []
    (by decide +kernel) (by decide +kernel) (by decide) with ⟨start, hmem, _⟩
  simp at hmem

end Server
end PadRelay
