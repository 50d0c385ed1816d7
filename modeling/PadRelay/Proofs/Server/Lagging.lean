import PadRelay.Proofs.Server.Changes
import PadRelay.Proofs.Server.Delivery

/-!
This module contains what acts do to a single client, and in particular to one that does not keep up: a
client for which an event finds no room loses its mailbox and is done.
-/

namespace PadRelay
namespace Member

theorem post_of_room {m : Member} {e : IncomingEvent} {room : Mailroom}
    (h : ∀ i, m.mailbox = some i → (room.post i e).1 ≠ .full) : (m.post e room).2.1 = m := by
  cases hi : m.mailbox with
  | none => rw [post_of_none hi]
  | some i => rw [post_of_some hi, if_neg (h i hi)]

theorem undergo_of_room {m : Member} {posted : Option IncomingEvent} {fate : Fate}
    {room : Mailroom} (ready : Bool) (hfate : fate ≠ .leaves)
    (hroom : ∀ i e, m.mailbox = some i → posted = some e → (room.post i e).1 ≠ .full)
    : (m.undergo ready posted fate room).1.mailbox = m.mailbox ∧
        (m.status ≠ .done → (m.undergo ready posted fate room).1.status ≠ .done) := by
  have hmailbox : (if ready then m.markReady else m).mailbox = m.mailbox := by
    split <;> simp
  have hstatus : m.status ≠ .done → (if ready then m.markReady else m).status ≠ .done := by
    intro hm
    unfold markReady
    split
    . split <;> simp [hm]
    . exact hm
  unfold undergo
  generalize (if ready then m.markReady else m) = m' at hmailbox hstatus
  have hposted : ∀ e, posted = some e → (m'.post e room).2.1 = m' := by
    intro e he
    apply post_of_room
    intro i hi
    exact hroom i e (by rw [← hmailbox, hi]) he
  have hplays : (if m'.status = .done then m' else { m' with status := .playing }).mailbox
        = m.mailbox ∧
      (m.status ≠ .done →
        (if m'.status = .done then m' else { m' with status := .playing }).status ≠ .done) := by
    split
    . exact ⟨hmailbox, hstatus⟩
    . exact ⟨hmailbox, by simp⟩
  cases fate with
  | stays =>
    cases posted with
    | none => exact ⟨hmailbox, hstatus⟩
    | some e =>
      dsimp
      rw [hposted e rfl]
      exact ⟨hmailbox, hstatus⟩
  | plays =>
    cases posted with
    | none => exact hplays
    | some e =>
      dsimp
      rw [hposted e rfl]
      exact hplays
  | leaves => exact absurd rfl hfate

end Member

namespace Console

theorem ready_of_allReady {c : Console} (h : c.allReady = true) {id : ClientId} {m : Member}
    (hm : c.members.get? id = some m) : m.status = .ready := by
  simp only [allReady, Bool.and_eq_true, List.all_eq_true, decide_eq_true_eq] at h
  exact h.2 m (SortedMap.mem_values_iff.2 ⟨id, hm⟩)

end Console

namespace Server

def mailbox? (s : Server) (b : Binding) : Option Nat :=
  (s.lobby.console? b.console).bind fun c => (c.members.get? b.clientId).bind (·.mailbox)

theorem mailbox?_eq_some_iff {s : Server} {b : Binding} {i : Nat}
    : s.mailbox? b = some i ↔ s.Holds b.console b.clientId i := by
  simp only [mailbox?, Option.bind_eq_some_iff, Holds]
  constructor
  . rintro ⟨c, hc, m, hm, hi⟩
    exact ⟨c, m, hc, hm, hi⟩
  . rintro ⟨c, m, hc, hm, hi⟩
    exact ⟨c, hc, m, hm, hi⟩

/-- Whether a client is addressed an event for which there is no room. -/
def lags (s : Server) (b : Binding) (a : Act) : Bool :=
  match s.mailbox? b, s.addresses b.console b.clientId a with
  | some i, some e => (s.room.post i e).1 = .full
  | _, _ => false

theorem post_ne_full_of_lags {s : Server} {b : Binding} {a : Act} (h : s.lags b a = false) {i : Nat}
    (hi : s.mailbox? b = some i) {e : IncomingEvent}
    (he : s.addresses b.console b.clientId a = some e) : (s.room.post i e).1 ≠ .full := by
  simpa [lags, hi, he] using h

/-- The ways in which an act treats member `id`, which is `m`, of the console at position `k`. -/
inductive Treats (s : Server) (k : Nat) (id : ClientId) (m : Member) : Act → Member → Prop
  | spare {a : Act} : Treats s k id m a m
  | replace {ports : PortSet} {delay : Int32} {requested : List Port} {romHash : String} :
    id = ⟨s.lobby.clientIds.next⟩ →
    Treats s k id m (.plug k delay requested romHash) { ports, delay }
  | bind {i : Nat} {ready : ClientReady} {c : Console} {box : Nat} :
    s.lobby.lookup? ⟨ready.consoleId⟩ = some (k, c) → id = ⟨ready.clientId⟩ → m.mailbox = none →
    Treats s k id m (.bind i ready) { m with mailbox := some box }
  | undergo {a : Act} {ready : Bool} {fate : Member.Fate} :
    (ready = true → ∃ i e, a = .handle i e ∧ s.boundTo i = some ⟨k, id⟩) →
    (fate = .plays → a = .start k ∧ m.status = .ready) →
    (fate = .leaves → a = .stop k ∨ ∃ i, a = .close i ∧ s.boundTo i = some ⟨k, id⟩) →
    Treats s k id m a (m.undergo ready (s.addresses k id a) fate s.room).1

section Treats

variable {s : Server} {k : Nat} {c c' : Console} {id : ClientId} {m m' : Member} {a : Act}

theorem treats_insert (hm : c.members.get? id = some m) (id' : ClientId) (m' : Member)
    (ht : id = id' → s.Treats k id m a m')
    : ∃ m'', (c.members.insert id' m').get? id = some m'' ∧ s.Treats k id m a m'' := by
  by_cases heq : id = id'
  . refine ⟨m', ?_, ht heq⟩
    rw [heq]
    apply SortedMap.get?_insert_self
  . refine ⟨m, ?_, .spare⟩
    rw [SortedMap.get?_insert_of_ne _ heq, hm]

theorem treats_serves {f : ClientId → Member → Mailroom → Member × Mailroom}
    {r : Console × Mailroom} (hs : c.Serves f s.room r) (hm : c.members.get? id = some m)
    (ht : s.Treats k id m a (f id m s.room).1)
    : ∃ m', r.1.members.get? id = some m' ∧ s.Treats k id m a m' := by
  refine ⟨_, ?_, ht⟩
  rw [hs.member, hm]
  rfl

theorem Changes.treats (hchanges : s.Changes k c a c') (h : s.Consistent)
    (hc : s.lobby.console? k = some c) (hm : c.members.get? id = some m)
    : ∃ m', c'.members.get? id = some m' ∧ s.Treats k id m a m' := by
  have hsep := h.separate hc
  cases hchanges with
  | plug => exact treats_insert hm _ _ .replace
  | bind hlookup hm' hnone =>
    apply treats_insert hm
    intro heq
    rw [heq, hm', Option.some.injEq] at hm
    subst hm
    exact .bind hlookup heq hnone
  | start hstatus hready =>
    apply treats_serves (Console.serves_broadcastStart hsep s.room) hm
    have hposted : s.addresses k id (.start k) = some c.startEvent := by
      simp [addresses, hc, hstatus, hready]
    rw [← hposted]
    exact .undergo (by simp) (fun _ => ⟨rfl, Console.ready_of_allReady hready hm⟩) (by simp)
  | stop =>
    apply treats_serves (Console.serves_stop hsep s.room) hm
    have hposted : s.addresses k id (.stop k) = some c.stopEvent := by
      simp [addresses, hc]
    rw [← hposted]
    exact .undergo (by simp) (by simp) (by simp)
  | @handle i e sender hb =>
    apply treats_serves (Console.serves_handle hsep sender e s.room) hm
    have hposted : s.addresses k id (.handle i e) = c.addressed sender e id := by
      simp [addresses, hc, hb]
    unfold Console.handling
    rw [← hposted]
    apply Treats.undergo
    . intro hready
      simp only [Bool.and_eq_true, decide_eq_true_eq] at hready
      exact ⟨i, e, rfl, hready.1 ▸ hb⟩
    . simp
    . simp
  | @close i leaver hb =>
    apply treats_serves (Console.serves_streamClosed hsep leaver s.room) hm
    have hposted : s.addresses k id (.close i) = none := by
      simp [addresses]
    unfold Console.closing
    rw [← hposted]
    apply Treats.undergo
    . simp
    . intro hplays
      split at hplays <;> simp at hplays
    . intro hleaves
      right
      refine ⟨i, rfl, ?_⟩
      split at hleaves
      . next heq => rw [heq, hb]
      . simp at hleaves

theorem treats_perform (h : s.Consistent) (hc : s.lobby.console? k = some c)
    (hm : c.members.get? id = some m) (a : Act)
    : ∃ c' m', (s.perform a).lobby.console? k = some c' ∧ c'.members.get? id = some m' ∧
        s.Treats k id m a m' := by
  rcases console?_perform_of_some hc a with ⟨c', hc', rfl | hchanges⟩
  . exact ⟨c', m, hc', hm, .spare⟩
  . rcases hchanges.treats h hc hm with ⟨m', hm', ht⟩
    exact ⟨c', m', hc', hm', ht⟩

theorem Treats.of_room (ht : s.Treats k id m a m') (hc : s.lobby.console? k = some c)
    (hm : c.members.get? id = some m) (hlags : s.lags ⟨k, id⟩ a = false) (hstop : a ≠ .stop k)
    (hclose : ∀ i, a = .close i → s.boundTo i ≠ some ⟨k, id⟩)
    : (m.status ≠ .done → m'.status ≠ .done) ∧
        ((∀ delay requested romHash, a = .plug k delay requested romHash →
            id ≠ ⟨s.lobby.clientIds.next⟩) →
          ∀ i, m.mailbox = some i → m'.mailbox = some i) := by
  cases ht with
  | spare => exact ⟨fun hstatus => hstatus, fun _ _ hi => hi⟩
  | replace heq => exact ⟨by simp, fun hne => absurd heq (hne _ _ _ rfl)⟩
  | bind _ _ hnone => exact ⟨fun hstatus => hstatus, fun _ i hi => by simp [hnone] at hi⟩
  | @undergo _ ready fate _ _ hfate =>
    have hstays : fate ≠ .leaves := by
      intro hleaves
      rcases hfate hleaves with heq | ⟨i, heq, hb⟩
      . exact hstop heq
      . exact hclose i heq hb
    have hroom : ∀ i e, m.mailbox = some i → s.addresses k id a = some e →
        (s.room.post i e).1 ≠ .full := by
      intro i e hi he
      apply post_ne_full_of_lags hlags
      . rw [mailbox?_eq_some_iff]
        exact ⟨c, m, hc, hm, hi⟩
      . exact he
    rcases Member.undergo_of_room ready hstays hroom with ⟨hmailbox, hstatus⟩
    refine ⟨hstatus, ?_⟩
    intro _ i hi
    rw [hmailbox, hi]

end Treats

/-- Whether `p` is true of each of a number of acts. -/
def every (p : Server → Act → Bool) (s : Server) : List Act → Bool
  | [] => true
  | a :: acts => p s a && every p (s.perform a) acts

theorem every_append (p : Server → Act → Bool) (s : Server) (acts acts' : List Act)
    : every p s (acts ++ acts') = (every p s acts && every p (s.performAll acts) acts') := by
  induction acts generalizing s with
  | nil => simp [every]
  | cons a acts ih => simp [every, ih, Bool.and_assoc]

theorem every_of_forall {p : Server → Act → Bool} {acts : List Act}
    (h : ∀ a ∈ acts, ∀ s, p s a = true) (s : Server) : every p s acts = true := by
  induction acts generalizing s with
  | nil => rfl
  | cons a acts ih =>
    unfold every
    rw [h a List.mem_cons_self, Bool.true_and]
    apply ih
    exact fun a ha => h a (List.mem_cons_of_mem _ ha)

theorem every_history {p : Server → Act → Bool} (h : ∀ s op, every p s (s.acts op) = true)
    (s : Server) (ops : List Operation) : every p s (s.history ops) = true := by
  induction ops generalizing s with
  | nil => rfl
  | cons op ops ih =>
    unfold history
    rw [every_append, h, Bool.true_and, ← step_eq_performAll]
    apply ih

end Server
end PadRelay
