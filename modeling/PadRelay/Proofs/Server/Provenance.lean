import PadRelay.Proofs.Server.Traffic

/-!
This module contains the proof that players are only sent keys that another player of their console may
send: every such event has exactly the keys of an event that the server received from the stream of the
one client that owns their ports.
-/

namespace PadRelay
namespace Port

theorem bounds_of_ofNumber {n : Int32} (h : ofNumber n ∈ controllers) : 1 ≤ n ∧ n ≤ 4 := by
  unfold ofNumber Enumeration.ofNumber? at h
  cases hfind : Enumeration.members.find? fun p : Port => Enumeration.number p == n with
  | none =>
    rw [hfind] at h
    simp [controllers] at h
  | some p =>
    rw [hfind, Option.getD_some] at h
    have heq := List.find?_some hfind
    rw [beq_iff_eq] at heq
    rw [← heq]
    cases p with
    | unknown => simp [controllers] at h
    | any => simp [controllers] at h
    | _ => decide

end Port

namespace Member

theorem firstRefusal?_eq_none_iff {m : Member} {id : ConsoleId} {keys : List KeyState}
    : m.firstRefusal? id keys = none ↔
        ∀ key ∈ keys, key.consoleId = id.value ∧ m.owns (Port.ofNumber key.port) = true := by
  induction keys with
  | nil => simp [firstRefusal?]
  | cons key rest ih =>
    unfold firstRefusal?
    dsimp
    rw [List.forall_mem_cons, ← ih]
    split
    . next hne => simp [hne]
    . next heq =>
      split
      . next hport => simp_all
      . next hport => simp_all

end Member

namespace Console

theorem addressed_of_keys {c : Console} {sender id : ClientId} {e : OutgoingEvent}
    {ev : IncomingEvent} (h : c.addressed sender e id = some ev) (hkeys : ev.keys ≠ [])
    : ∃ m, c.members.get? sender = some m ∧ m.firstRefusal? c.id e.keys = none := by
  unfold addressed at h
  split at h
  . simp at h
  . next m hm =>
    split at h
    . simp at h
    . split at h
      . split at h
        . rw [Option.some.injEq] at h
          rw [← h] at hkeys
          exact absurd rfl hkeys
        . simp at h
      . next hok => exact ⟨m, hm, hok⟩

/--
All keys are about this console and about controller ports which nobody owns but `sender`, from whom the
console accepts them and who is not `receiver`.
-/
structure Vouched (c : Console) (sender receiver : ClientId) (keys : List KeyState) : Prop where
  other : receiver ≠ sender
  accepted : ∃ m, c.members.get? sender = some m ∧ m.firstRefusal? c.id keys = none
  console : ∀ key ∈ keys, key.consoleId = c.id.value
  port : ∀ key ∈ keys, 1 ≤ key.port ∧ key.port ≤ 4
  owner : ∀ key ∈ keys, ∀ id m, c.members.get? id = some m →
    (m.owns (Port.ofNumber key.port) = true ↔ id = sender)

theorem Exclusive.vouched {c : Console} (h : c.Exclusive) {sender receiver : ClientId} {m : Member}
    {keys : List KeyState} (hm : c.members.get? sender = some m)
    (hok : m.firstRefusal? c.id keys = none) (hne : receiver ≠ sender)
    : c.Vouched sender receiver keys := by
  have hkeys := Member.firstRefusal?_eq_none_iff.1 hok
  constructor
  . exact hne
  . exact ⟨m, hm, hok⟩
  . exact fun key hkey => (hkeys key hkey).1
  . intro key hkey
    apply Port.bounds_of_ofNumber
    exact h.controller sender m _ hm (hkeys key hkey).2
  . intro key hkey id m' hm'
    constructor
    . intro hp
      exact h.disjoint id sender m' m _ hm' hm hp (hkeys key hkey).2
    . intro heq
      rw [heq, hm, Option.some.injEq] at hm'
      rw [← hm']
      exact (hkeys key hkey).2

end Console

namespace Server

/-- The console at position `k` accepts these keys from its client `id`. -/
def Accepts (s : Server) (k : Nat) (id : ClientId) (keys : List KeyState) : Prop :=
  ∃ c m, s.lobby.console? k = some c ∧ c.members.get? id = some m ∧
    m.firstRefusal? c.id keys = none

/-- Streams `j` and `i` belong to two clients of a console, which accepts these keys from the former. -/
structure Forwards (s : Server) (j i k : Nat) (sender receiver : ClientId) (keys : List KeyState) :
    Prop where
  origin : s.boundTo j = some ⟨k, sender⟩
  target : s.boundTo i = some ⟨k, receiver⟩
  other : receiver ≠ sender
  accepts : s.Accepts k sender keys

section Provenance

variable {s s' : Server} {i j k : Nat} {sender receiver : ClientId} {keys : List KeyState}
variable {e : IncomingEvent}

theorem Accepts.of_claim? (h : s.Accepts k sender keys)
    (hclaim : ∀ x, s.claim? k sender = some x → s'.claim? k sender = some x)
    (hid : ∀ x, s.consoleId? k = some x → s'.consoleId? k = some x)
    : s'.Accepts k sender keys := by
  rcases h with ⟨c, m, hc, hm, hok⟩
  have hid := hid c.id (consoleId?_of_console? hc)
  unfold consoleId? at hid
  rw [Option.map_eq_some_iff] at hid
  rcases hid with ⟨c', hc', hid⟩
  have hclaim := hclaim (m.ports, m.delay) (by rw [claim?_of_console? hc, Console.claim?_of_get? hm])
  rw [claim?_of_console? hc', Console.claim?_eq_some_iff] at hclaim
  rcases hclaim with ⟨m', hm', hports, _⟩
  refine ⟨c', m', hc', hm', ?_⟩
  rw [Member.firstRefusal?_eq_none_iff] at hok ⊢
  unfold Member.owns at hok ⊢
  rw [hid, hports]
  exact hok

theorem Accepts.vouched (h : s.Accepts k sender keys)
    (hexclusive : ∀ c, s.lobby.console? k = some c → c.Exclusive) (hne : receiver ≠ sender)
    : ∃ c, s.lobby.console? k = some c ∧ c.Vouched sender receiver keys := by
  rcases h with ⟨c, m, hc, hm, hok⟩
  exact ⟨c, hc, (hexclusive c hc).vouched hm hok hne⟩

theorem Forwards.performAll (hf : s.Forwards j i k sender receiver keys) (h : s.Consistent)
    {acts : List Act} (hacts : ∀ a ∈ acts, a.isPlug = false)
    : (s.performAll acts).Forwards j i k sender receiver keys := by
  have hpreserves := preserves_performAll h hacts
  constructor
  . exact boundTo_performAll h hf.origin acts
  . exact boundTo_performAll h hf.target acts
  . exact hf.other
  . apply hf.accepts.of_claim?
    . intro x hx
      rw [hpreserves.claim?, hx]
    . exact hpreserves.consoleId? k

theorem forwards_of_due {a : Act} (he : e ∈ s.due i a) (hkeys : e.keys ≠ [])
    : ∃ j event k sender receiver, a = .handle j event ∧ e = { keys := event.keys } ∧
        s.Forwards j i k sender receiver event.keys := by
  rcases mem_due_cases he with ⟨_, hnil⟩ | ⟨_, _, _, _, _, _, _, rfl⟩ |
    ⟨j, event, ⟨k, sender⟩, ⟨k', receiver⟩, rfl, hj, hi, rfl, hne, rfl⟩
  . exact absurd hnil hkeys
  . exact absurd rfl hkeys
  . refine ⟨j, event, k', sender, receiver, rfl, rfl, hj, hi, hne, ?_⟩
    have hnone : s.answered i (.handle j event) = [] := rfl
    unfold due addressed at he
    rw [hnone, List.nil_append, hi] at he
    dsimp at he
    rw [Option.mem_toList, addresses_handle, hj, Option.bind_some, if_pos rfl,
      Option.bind_eq_some_iff] at he
    rcases he with ⟨c, hc, he⟩
    rcases Console.addressed_of_keys he hkeys with ⟨m, hm, hok⟩
    exact ⟨c, m, hc, hm, hok⟩

theorem forwards_step (h : s.Consistent) {op : Operation} (he : e ∈ trace (due i) s (s.acts op))
    (hkeys : e.keys ≠ [])
    : ∃ j event k sender receiver, op = .receive j event ∧ e = { keys := event.keys } ∧
        (s.step op).Forwards j i k sender receiver event.keys := by
  rcases mem_trace he with ⟨before, a, after, hacts, hdue⟩
  rcases forwards_of_due hdue hkeys with ⟨j, event, k, sender, receiver, rfl, heq, hf⟩
  have hmem : Act.handle j event ∈ s.acts op := by
    rw [hacts]
    simp
  have hop : op = .receive j event := handle_mem_acts hmem
  have hplug : ∀ a ∈ s.acts op, a.isPlug = false := by
    apply isPlug_acts
    intro request
    rw [hop]
    simp
  refine ⟨j, event, k, sender, receiver, hop, heq, ?_⟩
  rw [step_eq_performAll, hacts, performAll_append]
  apply hf.performAll (consistent_performAll h before)
  intro a ha
  apply hplug
  rw [hacts]
  exact List.mem_append_right before ha

end Provenance

/--
Keys that a stream is sent are the keys of an event that arrived on a stream of another client of the
same console. That client alone owns their ports, at that time and also later as long as the identifiers
of clients do not wrap around.
-/
theorem relayed_keys_vouched (testMode : Bool) (limit : Option Nat) (ops : List Operation) (i : Nat)
    {e : IncomingEvent}
    (he : e ∈ trace (due i) (initial testMode limit) ((initial testMode limit).history ops) ∨
      e ∈ trace (received i) (initial testMode limit) ((initial testMode limit).history ops) ++
        ((initial testMode limit).run ops).room.pending i)
    (hkeys : e.keys ≠ [])
    : ∃ before j event after, ops = before ++ .receive j event :: after ∧
        e = { keys := event.keys } ∧
        ∃ k sender receiver,
          let s := (initial testMode limit).run (before ++ [.receive j event])
          s.boundTo j = some ⟨k, sender⟩ ∧ s.boundTo i = some ⟨k, receiver⟩ ∧
            (∃ c, s.lobby.console? k = some c ∧ c.Vouched sender receiver e.keys) ∧
            ((initial testMode limit).successfulPlugs ops < 0x7fffffffffffffff →
              ∃ c, ((initial testMode limit).run ops).lobby.console? k = some c ∧
                c.Vouched sender receiver e.keys) := by
  have hcons := consistent_initial testMode limit
  have hdue : e ∈ trace (due i) (initial testMode limit) ((initial testMode limit).history ops) := by
    rcases he with he | he
    . exact he
    . rw [run_eq_performAll] at he
      exact (sublist_performAll hcons i _).subset he
  rcases mem_trace_history hdue with ⟨before, op, after, rfl, hop⟩
  rcases forwards_step (consistent_run testMode limit before) hop hkeys with
    ⟨j, event, k, sender, receiver, rfl, rfl, hf⟩
  have hrun : ((initial testMode limit).run before).step (.receive j event)
      = (initial testMode limit).run (before ++ [.receive j event]) := by
    rw [run_append]
    rfl
  rw [hrun] at hf
  refine ⟨before, j, event, after, rfl, rfl, k, sender, receiver, hf.origin, hf.target, ?_, ?_⟩
  . apply hf.accepts.vouched _ hf.other
    intro c hc
    exact exclusive_run testMode limit _ hc
  . intro hplugs
    have hsplit : before ++ .receive j event :: after
        = (before ++ [.receive j event]) ++ after := by simp
    rw [hsplit, successfulPlugs_append] at hplugs
    have hallotted := allotted_run (allotted_initial testMode limit) (before ++ [.receive j event])
      (by omega)
    rw [hsplit]
    apply Accepts.vouched _ (fun c hc => exclusive_run testMode limit _ hc) hf.other
    rw [run_append]
    apply hf.accepts.of_claim?
    . exact fun _ hx => claim?_run hallotted after (by omega) hx
    . exact fun _ hx => consoleId?_run hallotted after (by omega) hx

theorem relayed_keys_vouched_exchange
    : let keys : List KeyState := [{ consoleId := 1, port := 1, frame := 0 }]
      { keys := keys } ∈ ((initial false none).run exchange).room.pending 1 ∧
        ∃ j event k sender receiver c, .receive j event ∈ exchange ∧ event.keys = keys ∧
          ((initial false none).run exchange).lobby.console? k = some c ∧
          c.Vouched sender receiver keys := by
  have hpending : { keys := [{ consoleId := 1, port := 1, frame := 0 }] }
      ∈ ((initial false none).run exchange).room.pending 1 := by decide +kernel
  have hplugs : (initial false none).successfulPlugs exchange < 0x7fffffffffffffff := by
    decide +kernel
  rcases relayed_keys_vouched false none exchange 1 (Or.inr (List.mem_append_right _ hpending))
    (by simp) with ⟨before, j, event, after, hops, heq, k, sender, receiver, _, _, _, hlater⟩
  rcases hlater hplugs with ⟨c, hc, hvouched⟩
  rw [IncomingEvent.mk.injEq] at heq
  have hmem : .receive j event ∈ exchange := by
    rw [hops]
    simp
  exact ⟨hpending, j, event, k, sender, receiver, c, hmem, heq.1.symm, hc, hvouched⟩

end Server
end PadRelay
