import PadRelay.Proofs.Server.GapFree
import PadRelay.Proofs.Server.PortExclusivity

/-!
This module contains the theory of single operations as the streams see them: what an operation may add
to a mailbox, how a stream comes to belong to a client, and that a game starts at most once.
-/

namespace PadRelay
namespace Server

section Due

variable {s : Server} {i k : Nat} {id : ClientId} {a : Act} {e : IncomingEvent}

theorem mem_answered (he : e ∈ s.answered i a)
    : e.start = none ∧ e.keys = [] ∧ ∃ consoleId status, a = .reply i consoleId status := by
  cases a with
  | reply j consoleId status =>
    unfold answered at he
    dsimp at he
    split at he
    . simp at he
    . split at he
      . simp at he
      . split at he
        . next hself =>
          rw [List.mem_singleton] at he
          rw [he]
          exact ⟨rfl, rfl, consoleId, status, by rw [hself.1]⟩
        . simp at he
  | _ => simp [answered] at he

/-- Why the console at position `k` addresses event `e` to its client `id` in an act. -/
inductive Addressing (s : Server) (k : Nat) (id : ClientId) (e : IncomingEvent) : Act → Prop
  | start {c : Console} :
    s.lobby.console? k = some c → c.status = .created → c.allReady = true → e = c.startEvent →
    Addressing s k id e (.start k)
  | stop {c : Console} :
    s.lobby.console? k = some c → e = c.stopEvent → Addressing s k id e (.stop k)
  | handle {j : Nat} {ev : OutgoingEvent} {sender : Binding} :
    s.boundTo j = some sender → sender.console = k → ev.keys ≠ [] →
    (e.start = none ∧ e.keys = []) ∨ (id ≠ sender.clientId ∧ e = { keys := ev.keys }) →
    Addressing s k id e (.handle j ev)

theorem addressing_of_addresses (he : s.addresses k id a = some e) : s.Addressing k id e a := by
  cases a with
  | start j =>
    rw [addresses_start] at he
    split at he
    . next heq =>
      subst heq
      rw [Option.bind_eq_some_iff] at he
      rcases he with ⟨c, hc, he⟩
      split at he
      . next hcreated =>
        rw [Option.some.injEq] at he
        exact .start hc hcreated.1 hcreated.2 he.symm
      . simp at he
    . simp at he
  | stop j =>
    rw [addresses_stop] at he
    split at he
    . next heq =>
      subst heq
      rw [Option.map_eq_some_iff] at he
      rcases he with ⟨c, hc, he⟩
      exact .stop hc he.symm
    . simp at he
  | handle j ev =>
    rw [addresses_handle, Option.bind_eq_some_iff] at he
    rcases he with ⟨sender, hsender, he⟩
    split at he
    . next heq =>
      rw [Option.bind_eq_some_iff] at he
      rcases he with ⟨c, _, he⟩
      rcases Console.addressed_eq_some he with ⟨hkeys, hcases⟩
      exact .handle hsender heq hkeys hcases
    . simp at he
  | _ =>
    unfold addresses at he
    rw [Option.bind_eq_some_iff] at he
    rcases he with ⟨_, _, he⟩
    simp at he

/-- A stream is due refusals and what is addressed to the client that it belongs to. -/
theorem mem_due (he : e ∈ s.due i a)
    : e ∈ s.answered i a ∨
        ∃ b, s.boundTo i = some b ∧ s.Addressing b.console b.clientId e a := by
  unfold due at he
  refine (List.mem_append.1 he).imp_right fun he => ?_
  unfold addressed at he
  split at he
  . simp at he
  . next b hb => exact ⟨b, hb, addressing_of_addresses (Option.mem_toList.1 he)⟩

theorem mem_due_cases (he : e ∈ s.due i a)
    : (e.start = none ∧ e.keys = []) ∨
        (∃ b c, a = .start b.console ∧ s.boundTo i = some b ∧
          s.lobby.console? b.console = some c ∧ c.status = .created ∧ c.allReady = true ∧
          e = c.startEvent) ∨
        ∃ j ev bj bi, a = .handle j ev ∧ s.boundTo j = some bj ∧ s.boundTo i = some bi ∧
          bi.console = bj.console ∧ bi.clientId ≠ bj.clientId ∧ e = { keys := ev.keys } := by
  rcases mem_due he with hanswered | ⟨b, hb, haddressing⟩
  . exact Or.inl ⟨(mem_answered hanswered).1, (mem_answered hanswered).2.1⟩
  . cases haddressing with
    | start hc hcreated hready heq =>
      exact Or.inr (Or.inl ⟨b, _, rfl, hb, hc, hcreated, hready, heq⟩)
    | stop _ heq =>
      rw [heq]
      exact Or.inl ⟨rfl, rfl⟩
    | handle hsender hconsole _ hcases =>
      rcases hcases with hrefusal | ⟨hne, heq⟩
      . exact Or.inl hrefusal
      . exact Or.inr (Or.inr ⟨_, _, _, b, rfl, hsender, hb, hconsole.symm, hne, heq⟩)

end Due

theorem mem_trace {f : Server → Act → List IncomingEvent} {s : Server} {acts : List Act}
    {e : IncomingEvent} (he : e ∈ trace f s acts)
    : ∃ before a after, acts = before ++ a :: after ∧ e ∈ f (s.performAll before) a := by
  induction acts generalizing s with
  | nil => simp [trace] at he
  | cons a acts ih =>
    unfold trace at he
    cases List.mem_append.1 he with
    | inl he => exact ⟨[], a, acts, rfl, he⟩
    | inr he =>
      rcases ih he with ⟨before, a', after, heq, hin⟩
      exact ⟨a :: before, a', after, by rw [heq]; rfl, hin⟩

theorem mem_trace_history {f : Server → Act → List IncomingEvent} {s : Server}
    {ops : List Operation} {e : IncomingEvent} (he : e ∈ trace f s (s.history ops))
    : ∃ before op after, ops = before ++ op :: after ∧
        e ∈ trace f (s.run before) ((s.run before).acts op) := by
  induction ops generalizing s with
  | nil => simp [history, trace] at he
  | cons op ops ih =>
    unfold history at he
    rw [trace_append, List.mem_append, ← step_eq_performAll] at he
    rcases he with he | he
    . exact ⟨[], op, ops, rfl, he⟩
    . rcases ih he with ⟨before, op', after, rfl, hin⟩
      exact ⟨op :: before, op', after, rfl, hin⟩

/-- Whether an act neither relays nor starts nor binds anything. -/
def Act.isAside : Act → Bool
  | .start _ | .handle _ _ | .bind _ _ => false
  | _ => true

theorem acts_cases (s : Server) (op : Operation)
    : (∀ a ∈ s.acts op, a.isAside = true) ∨
        (∃ request k, op = .startGame request ∧ s.acts op = [.start k]) ∨
        (∃ i e, op = .receive i e ∧ s.acts op = [.handle i e]) ∨
        ∃ i e ready, op = .receive i e ∧ e.ready = some ready ∧
          s.acts op = [.bind i ready, .handle i e] := by
  cases op with
  | receive i e =>
    unfold acts
    dsimp
    split
    . left
      simp
    . split
      . left
        simp
      . split
        . exact Or.inr (Or.inr (Or.inl ⟨i, e, rfl, rfl⟩))
        . split
          . left
            simp [Act.isAside]
          . next ready hready =>
            split
            . left
              simp [Act.isAside]
            . exact Or.inr (Or.inr (Or.inr ⟨i, e, ready, rfl, hready, rfl⟩))
  | startGame request =>
    unfold acts
    dsimp
    split
    . left
      simp
    . next k _ _ => exact Or.inr (Or.inl ⟨request, k, rfl, rfl⟩)
  | plugController request =>
    left
    unfold acts
    dsimp
    split <;> simp [Act.isAside]
  | shutDown request =>
    left
    unfold acts
    dsimp
    split
    . intro a ha
      rw [List.mem_append, List.mem_map, List.mem_singleton] at ha
      rcases ha with ⟨k, _, rfl⟩ | rfl <;> rfl
    . simp
  | endStream i =>
    left
    unfold acts
    dsimp
    repeat' split
    all_goals simp [Act.isAside]
  | _ =>
    left
    simp [acts, Act.isAside]

section Acts

variable {s : Server} {op : Operation} {before after : List Act} {a : Act}

theorem start_mem_acts {k : Nat} (ha : .start k ∈ s.acts op) : s.acts op = [.start k] := by
  rcases acts_cases s op with haside | ⟨_, j, _, heq⟩ | ⟨_, _, _, heq⟩ | ⟨_, _, _, _, _, heq⟩
  . have := haside _ ha
    simp [Act.isAside] at this
  . rw [heq] at ha ⊢
    simp only [List.mem_singleton, Act.start.injEq] at ha
    rw [ha]
  . simp [heq] at ha
  . simp [heq] at ha

theorem handle_mem_acts {i : Nat} {e : OutgoingEvent} (ha : .handle i e ∈ s.acts op)
    : op = .receive i e := by
  rcases acts_cases s op with haside | ⟨_, _, _, heq⟩ | ⟨j, e', rfl, heq⟩ | ⟨j, e', _, rfl, _, heq⟩
  . have := haside _ ha
    simp [Act.isAside] at this
  . simp [heq] at ha
  . simp only [heq, List.mem_singleton, Act.handle.injEq] at ha
    rw [ha.1, ha.2]
  . simp only [heq, List.mem_cons, reduceCtorEq, Act.handle.injEq, List.not_mem_nil, or_false,
      false_or] at ha
    rw [ha.1, ha.2]

theorem step_of_acts (hacts : s.acts op = before ++ a :: after)
    : s.step op = ((s.performAll before).perform a).performAll after := by
  rw [step_eq_performAll, hacts, performAll_append]
  rfl

/-- What an act of an operation sees of the bindings still holds when all of its acts are done. -/
theorem boundTo_step_of_acts (h : s.Consistent) (hacts : s.acts op = before ++ a :: after)
    {j : Nat} {b : Binding} (hb : (s.performAll before).boundTo j = some b)
    : (s.step op).boundTo j = some b := by
  have hcons := consistent_performAll h before
  rw [step_of_acts hacts]
  exact boundTo_performAll (consistent_perform hcons a) (boundTo_perform hcons hb a) after

end Acts

theorem start_of_created {c : Console} (hcreated : c.status = .created)
    (hready : c.allReady = true) (room : Mailroom) : c.start room = .ok (c.broadcastStart room) := by
  simp [Console.start, hcreated, hready]

theorem console?_start {s : Server} {k : Nat} {c : Console} (hc : s.lobby.console? k = some c)
    (hcreated : c.status = .created) (hready : c.allReady = true)
    : ∃ c', (s.perform (.start k)).lobby.console? k = some c' ∧ c'.status ≠ .created := by
  refine ⟨(c.broadcastStart s.room).1, ?_, by simp [Console.broadcastStart]⟩
  simp only [perform, hc, start_of_created hcreated hready]
  exact Lobby.console?_set_self hc _

/--
An event that an operation may add to the mailbox of stream `i`, and what has happened if the event
starts a game or has keys.
-/
inductive Carries (s : Server) (op : Operation) (i : Nat) : IncomingEvent → Prop
  | nothing {e : IncomingEvent} : e.start = none → e.keys = [] → Carries s op i e
  | start {b : Binding} {c c' : Console} :
    s.boundTo i = some b → s.lobby.console? b.console = some c → c.status = .created →
    (s.step op).lobby.console? b.console = some c' → c'.status ≠ .created →
    Carries s op i c.startEvent
  | keys {j : Nat} {e : OutgoingEvent} {sender b : Binding} :
    op = .receive j e → (s.step op).boundTo j = some sender → (s.step op).boundTo i = some b →
    b.console = sender.console → b.clientId ≠ sender.clientId → Carries s op i { keys := e.keys }

theorem carries_of_due {s : Server} (h : s.Consistent) {op : Operation} {i : Nat}
    {e : IncomingEvent} (he : e ∈ trace (due i) s (s.acts op)) : s.Carries op i e := by
  rcases mem_trace he with ⟨before, a, after, hacts, he⟩
  have hmem : a ∈ s.acts op := by
    rw [hacts]
    simp
  rcases mem_due_cases he with ⟨hstart, hkeys⟩ | ⟨b, c, rfl, hb, hc, hcreated, hready, rfl⟩ |
    ⟨j, ev, bj, bi, rfl, hbj, hbi, hconsole, hne, rfl⟩
  . exact .nothing hstart hkeys
  . -- The start is all that happens.
    have hnil : before = [] ∧ after = [] := by
      rw [start_mem_acts hmem] at hacts
      cases before with
      | nil => exact ⟨rfl, by simpa using hacts⟩
      | cons _ _ => simp at hacts
    have hstep := step_of_acts hacts
    rw [hnil.1, performAll_nil] at hb hc
    rw [hnil.1, hnil.2, performAll_nil, performAll_nil] at hstep
    rcases console?_start hc hcreated hready with ⟨c', hc', hpowered⟩
    rw [← hstep] at hc'
    exact .start hb hc hcreated hc' hpowered
  . exact .keys (handle_mem_acts hmem) (boundTo_step_of_acts h hacts hbj)
      (boundTo_step_of_acts h hacts hbi) hconsole hne

def starts (events : List IncomingEvent) : Nat :=
  events.countP (·.start.isSome)

theorem length_due_le (s : Server) (i : Nat) (a : Act) : (s.due i a).length ≤ 1 := by
  unfold due
  cases hanswered : s.answered i a with
  | nil =>
    unfold addressed
    split
    . simp
    . rw [List.nil_append]
      cases s.addresses _ _ a <;> simp
  | cons e rest =>
    cases a with
    | reply j consoleId status =>
      rw [addressed_eq_nil, List.append_nil, ← hanswered]
      . unfold answered
        dsimp
        repeat' split
        all_goals simp
      . intro k id
        unfold addresses
        cases s.lobby.console? k <;> rfl
    | _ => simp [answered] at hanswered

theorem starts_due_le (s : Server) (op : Operation) (i : Nat)
    : starts (trace (due i) s (s.acts op)) ≤ 1 := by
  by_cases hexists : ∃ e ∈ trace (due i) s (s.acts op), e.start.isSome = true
  . rcases hexists with ⟨e, he, hstart⟩
    rcases mem_trace he with ⟨before, a, after, hacts, he⟩
    have hmem : a ∈ s.acts op := by
      rw [hacts]
      simp
    rcases mem_due_cases he with ⟨hnone, _⟩ | ⟨b, c, rfl, _⟩ | ⟨_, _, _, _, _, _, _, _, _, rfl⟩
    . rw [hnone] at hstart
      simp at hstart
    . have heq : s.acts op = [.start b.console] := start_mem_acts hmem
      have hle : starts (s.due i (.start b.console)) ≤ _ := List.countP_le_length
      have := length_due_le s i (.start b.console)
      rw [heq]
      simp only [trace, List.append_nil]
      omega
    . simp at hstart
  . have : starts (trace (due i) s (s.acts op)) = 0 := by
      unfold starts
      rw [List.countP_eq_zero]
      intro e he hstart
      exact hexists ⟨e, he, hstart⟩
    omega

theorem sublist_perform {s : Server} (h : s.Consistent) (i : Nat) (a : Act)
    : List.Sublist (s.received i a ++ (s.perform a).room.pending i)
        (s.room.pending i ++ s.due i a) := by
  cases hb : s.room.boxes[i]? with
  | none =>
    have hpending : (s.perform a).room.pending i = [] := by
      unfold Mailroom.pending
      cases hb' : (s.perform a).room.boxes[i]? with
      | none => rfl
      | some b' => simp [pending_perform_of_none h hb a hb']
    rw [(due_of_none h hb a).2, hpending]
    simp
  | some b =>
    rcases delivers_perform h a hb with ⟨b', hb', hd⟩
    unfold Mailroom.pending
    rw [hb, hb']
    exact hd.order.sublist

theorem sublist_performAll {s : Server} (h : s.Consistent) (i : Nat) (acts : List Act)
    : List.Sublist (trace (received i) s acts ++ (s.performAll acts).room.pending i)
        (s.room.pending i ++ trace (due i) s acts) := by
  induction acts generalizing s with
  | nil => simp [trace]
  | cons a acts ih =>
    have hhead := sublist_perform h i a
    have htail := ih (consistent_perform h a)
    unfold trace
    rw [List.append_assoc, ← List.append_assoc (s.room.pending i), performAll_cons]
    apply (List.Sublist.append_left htail (s.received i a)).trans
    rw [← List.append_assoc]
    exact List.Sublist.append_right hhead _

theorem sublist_step {s : Server} (h : s.Consistent) (i : Nat) (op : Operation)
    : List.Sublist (trace (received i) s (s.acts op) ++ (s.step op).room.pending i)
        (s.room.pending i ++ trace (due i) s (s.acts op)) := by
  rw [step_eq_performAll]
  exact sublist_performAll h i (s.acts op)

theorem boundTo_step {s : Server} (h : s.Consistent) {i : Nat} {b : Binding}
    (hb : s.boundTo i = some b) (op : Operation) : (s.step op).boundTo i = some b := by
  rw [step_eq_performAll]
  exact boundTo_performAll h hb (s.acts op)

theorem boundTo_run {s : Server} (h : s.Consistent) {i : Nat} {b : Binding}
    (hb : s.boundTo i = some b) (ops : List Operation) : (s.run ops).boundTo i = some b := by
  rw [run_eq_performAll]
  exact boundTo_performAll h hb _

theorem boundTo_step_cases {s : Server} {op : Operation} {i : Nat} {b : Binding}
    (hb : (s.step op).boundTo i = some b)
    : s.boundTo i = some b ∨
        ∃ e ready c m, op = .receive i e ∧ e.ready = some ready ∧
          s.lobby.lookup? ⟨ready.consoleId⟩ = some (b.console, c) ∧
          b.clientId = ⟨ready.clientId⟩ ∧ c.members.get? b.clientId = some m := by
  -- Induction on the acts of which none binds this stream.
  have hunbound : ∀ {s' : Server} {acts}, (∀ a ∈ acts, ∀ ready, a ≠ .bind i ready) →
      (s'.performAll acts).boundTo i = s'.boundTo i := by
    intro s' acts hacts
    induction acts generalizing s' with
    | nil => rfl
    | cons a acts ih =>
      rw [performAll_cons, ih fun a ha => hacts a (List.mem_cons_of_mem _ ha)]
      rcases boundTo_perform_cases s' a i with heq | ⟨ready, _, _, _, heq, _⟩
      . exact heq
      . exact absurd heq (hacts a List.mem_cons_self ready)
  rw [step_eq_performAll] at hb
  rcases acts_cases s op with haside | ⟨_, _, _, heq⟩ | ⟨_, _, _, heq⟩ |
    ⟨j, e, ready, rfl, hready, heq⟩
  . rw [hunbound] at hb
    . exact Or.inl hb
    . intro a ha ready hbind
      have := haside a ha
      rw [hbind] at this
      simp [Act.isAside] at this
  . rw [heq, hunbound (by simp)] at hb
    exact Or.inl hb
  . rw [heq, hunbound (by simp)] at hb
    exact Or.inl hb
  . rw [heq, performAll_cons, hunbound (by simp)] at hb
    rcases boundTo_perform_cases s (.bind j ready) i with heq | ⟨_, _, b', _, hbind, _, hok, hb'⟩
    . rw [heq] at hb
      exact Or.inl hb
    . rw [Act.bind.injEq] at hbind
      rcases hbind with ⟨rfl, rfl⟩
      rw [hb', Option.some.injEq] at hb
      subst hb
      rcases bind?_eq_ok hok with ⟨c, m, _, hlookup, hclient, hm, _⟩
      exact Or.inr ⟨e, ready, c, m, rfl, hready, hlookup, hclient, hm⟩

theorem length_streams_step (s : Server) (op : Operation)
    : s.streams.length ≤ (s.step op).streams.length := by
  have hacts : ∀ (acts : List Act) (s : Server),
      s.streams.length ≤ (s.performAll acts).streams.length := by
    intro acts
    induction acts with
    | nil => exact fun _ => Nat.le_refl _
    | cons a acts ih =>
      intro s
      have := length_streams_perform s a
      have := ih (s.perform a)
      rw [performAll_cons]
      omega
  rw [step_eq_performAll]
  exact hacts _ _

section Created

variable {s : Server} {k : Nat} {c c' : Console}

theorem created_step (hc : s.lobby.console? k = some c) {op : Operation}
    (hc' : (s.step op).lobby.console? k = some c') (hcreated : c'.status = .created)
    : c.status = .created := by
  rw [step_eq_performAll] at hc'
  -- Induction on the acts. The console stays where it is, so it can be followed through all of them.
  generalize s.acts op = acts at hc'
  induction acts generalizing s c with
  | nil =>
    rw [performAll_nil, hc, Option.some.injEq] at hc'
    rw [hc']
    exact hcreated
  | cons a acts ih =>
    rcases console?_perform_of_some hc a with ⟨c₁, hc₁, heq⟩
    have hcreated₁ := ih hc₁ hc'
    rcases heq with rfl | hchanges
    . exact hcreated₁
    . exact hchanges.created hcreated₁

/-- A console that waits for its start after an operation has waited for it before. -/
theorem created_of_step (h : s.Consistent) {op : Operation}
    (hcreated : ∀ c, (s.step op).lobby.console? k = some c → c.status = .created)
    : ∀ c, s.lobby.console? k = some c → c.status = .created := by
  intro c hc
  have hid := consoleId?_step h op (consoleId?_of_console? hc)
  unfold consoleId? at hid
  rw [Option.map_eq_some_iff] at hid
  rcases hid with ⟨c', hc', _⟩
  exact created_step hc hc' (hcreated c' hc')

end Created

end Server
end PadRelay
