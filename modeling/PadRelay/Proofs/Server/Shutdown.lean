import PadRelay.Proofs.Server.Directory
import PadRelay.Proofs.Server.GapFree
import PadRelay.Proofs.Server.StreamEnd

/-!
This module contains the proof that a shutdown stops everything or nothing. Whatever state the consoles on
the list and their clients are in, all of them are done afterwards and hold no stream, and each stream that
they held ends with at most one event that tells so.
-/

namespace PadRelay
namespace Member

/-- A member whose console was stopped. -/
def stopped (m : Member) : Member :=
  { m with status := .done, mailbox := none }

theorem undergo_leaves_fst (m : Member) (e : IncomingEvent) (room : Mailroom)
    : (undergo false (some e) .leaves m room).1 = m.stopped := by
  unfold undergo stopped
  dsimp
  rw [leave_fst]
  rcases post_eq_or_leave m e room with h | ⟨room', h⟩
  . rw [h]
  . rw [h, leave_fst]

/-- Whether or not the event still fits in, the mailbox is given up. -/
theorem undergo_leaves_box {m : Member} {i : Nat} (hm : m.mailbox = some i) {room : Mailroom}
    {b : Mailbox} (hb : room.boxes[i]? = some b) (e : IncomingEvent)
    : (undergo false (some e) .leaves m room).2.boxes[i]? = some (b.post e).2.closeSender := by
  rw [undergo_box hm hb, if_neg]
  . rfl
  . simp [keepsMailbox]

end Member

namespace Console

def stopped (c : Console) : Console :=
  { c with status := .done, members := c.members.map fun _ m => m.stopped }

theorem stop_fst {c : Console} (h : c.Separate) (room : Mailroom) : (c.stop room).1 = c.stopped := by
  have hs := serves_stop h room
  have hmembers : (c.stop room).1.members = c.members.map fun _ m => m.stopped := by
    apply SortedMap.ext_get?
    intro id
    rw [hs.member, SortedMap.get?_map]
    simp only [Member.undergo_leaves_fst]
  unfold stopped
  rw [← hmembers]
  rfl

@[simp]
theorem stopped_stopped (c : Console) : c.stopped.stopped = c.stopped := by
  have hmembers : c.stopped.stopped.members = c.stopped.members := by
    apply SortedMap.ext_get?
    intro id
    simp only [stopped, SortedMap.get?_map, Option.map_map]
    rfl
  unfold stopped at hmembers ⊢
  dsimp at hmembers ⊢
  rw [hmembers]

theorem get?_stopped {c : Console} {id : ClientId} {m : Member}
    (h : c.stopped.members.get? id = some m)
    : ∃ n, c.members.get? id = some n ∧ m = n.stopped := by
  unfold stopped at h
  dsimp at h
  rw [SortedMap.get?_map, Option.map_eq_some_iff] at h
  rcases h with ⟨n, hn, rfl⟩
  exact ⟨n, hn, rfl⟩

end Console

namespace Server

/-- What it means that the consoles at the positions `ks` were stopped. -/
structure Stops (s s' : Server) (ks : List Nat) : Prop where
  console : ∀ k, s'.lobby.console? k
    = (s.lobby.console? k).map fun c => if k ∈ ks then c.stopped else c
  held : ∀ k ∈ ks, ∀ c id m i b, s.lobby.console? k = some c → c.members.get? id = some m →
    m.mailbox = some i → s.room.boxes[i]? = some b →
    s'.room.boxes[i]? = some (b.post c.stopEvent).2.closeSender
  free : ∀ j, (∀ k ∈ ks, ∀ id, ¬ s.Holds k id j) → s'.room.boxes[j]? = s.room.boxes[j]?
  streams : s'.streams = s.streams
  isListed : ∀ k, s'.lobby.isListed k = s.lobby.isListed k

section Stops

variable {s s₁ s' : Server} {k : Nat} {ks ks' : List Nat} {id : ClientId} {i : Nat}

theorem Stops.refl (s : Server) : s.Stops s [] :=
  ⟨fun k => by simp, by simp, fun _ _ => rfl, rfl, fun _ => rfl⟩

/-- Nobody whose console was stopped holds a mailbox any more, and nobody else has lost any. -/
theorem Stops.holds_iff (h : s.Stops s' ks) : s'.Holds k id i ↔ s.Holds k id i ∧ k ∉ ks := by
  unfold Holds
  rw [h.console]
  constructor
  . rintro ⟨c', m', hc', hm', hi⟩
    rcases Option.map_eq_some_iff.1 hc' with ⟨c, hc, rfl⟩
    split at hm'
    . rcases Console.get?_stopped hm' with ⟨m, _, rfl⟩
      simp [Member.stopped] at hi
    . next hk => exact ⟨⟨c, m', hc, hm', hi⟩, hk⟩
  . rintro ⟨⟨c, m, hc, hm, hi⟩, hk⟩
    exact ⟨c, m, by rw [hc, Option.map_some, if_neg hk], hm, hi⟩

theorem Stops.trans (hcons : s.Consistent) (h : s.Stops s₁ ks) (h' : s₁.Stops s' ks')
    : s.Stops s' (ks ++ ks') where
  console k := by
    rw [h'.console, h.console, Option.map_map]
    congr 1
    funext c
    by_cases hk : k ∈ ks <;> by_cases hk' : k ∈ ks' <;> simp [hk, hk']
  held k hk c id m i b hc hm hi hb := by
    have hholds : s.Holds k id i := ⟨c, m, hc, hm, hi⟩
    -- A mailbox has one holder, so only one of the consoles is concerned.
    have hunique : ∀ k' id', s.Holds k' id' i → k' = k := by
      intro k' id' hholds'
      have heq := hcons.boundTo_of_holds hholds'
      rw [hcons.boundTo_of_holds hholds, Option.some.injEq, Binding.mk.injEq] at heq
      exact heq.1.symm
    by_cases hfirst : k ∈ ks
    . rw [h'.free i]
      . exact h.held k hfirst c id m i b hc hm hi hb
      . intro k' _ id' hholds'
        rcases h.holds_iff.1 hholds' with ⟨hholds', hnot⟩
        exact hnot (hunique k' id' hholds' ▸ hfirst)
    . have hk' : k ∈ ks' := (List.mem_append.1 hk).resolve_left hfirst
      apply h'.held k hk' c id m i b _ hm hi
      . rw [h.free i, hb]
        intro k' hmem id' hholds'
        exact hfirst (hunique k' id' hholds' ▸ hmem)
      . rw [h.console, hc, Option.map_some, if_neg hfirst]
  free j hj := by
    rw [h'.free j, h.free j]
    . exact fun k hk => hj k (List.mem_append_left _ hk)
    . intro k hk id hholds
      exact hj k (List.mem_append_right _ hk) id (h.holds_iff.1 hholds).1
  streams := h'.streams.trans h.streams
  isListed k := (h'.isListed k).trans (h.isListed k)

theorem stops_stop (h : s.Consistent) (k : Nat) : s.Stops (s.perform (.stop k)) [k] := by
  cases hc : s.lobby.console? k with
  | none =>
    have hsame : s.perform (.stop k) = s := by
      simp only [perform, hc]
    rw [hsame]
    refine ⟨?_, ?_, fun _ _ => rfl, rfl, fun _ => rfl⟩
    . intro j
      by_cases hj : j = k
      . rw [hj, hc]
        rfl
      . simp [hj]
    . intro j hj c id m i b hc'
      rw [List.mem_singleton.1 hj, hc] at hc'
      simp at hc'
  | some c =>
    have hs := Console.serves_stop (h.separate hc) s.room
    have hperform : s.perform (.stop k) = s.update k (c.stop s.room) := by
      simp only [perform, hc]
    rw [hperform]
    constructor
    . intro j
      unfold update
      dsimp
      rw [Lobby.console?_set, Console.stop_fst (h.separate hc)]
      by_cases hj : k = j
      . subst hj
        simp [hc]
      . simp [hj, Ne.symm hj]
    . intro j hj c' id m i b hc' hm hi hb
      rw [List.mem_singleton.1 hj, hc, Option.some.injEq] at hc'
      subst hc'
      exact (hs.box id m i hm hi).trans (Member.undergo_leaves_box hi hb _)
    . intro j hj
      apply hs.other
      intro id m hm hi
      exact hj k List.mem_cons_self id ⟨c, m, hc, hm, hi⟩
    . rfl
    . exact (sameList_update s k _).isListed

theorem stops_performAll (h : s.Consistent) (ks : List Nat)
    : s.Stops (s.performAll (ks.map .stop)) ks := by
  induction ks generalizing s with
  | nil => exact .refl s
  | cons k ks ih =>
    rw [List.map_cons, performAll_cons]
    exact (stops_stop h k).trans h (ih (consistent_perform h _))

theorem mem_listedFrom {l : List LobbyEntry} {j : Nat}
    : k ∈ listedFrom j l ↔ j ≤ k ∧ (l[k - j]?).any (·.listed) = true := by
  induction l generalizing j with
  | nil => simp [listedFrom]
  | cons e rest ih =>
    unfold listedFrom
    by_cases hk : k = j
    . subst hk
      split
      . next hlisted => simp [hlisted]
      . next hlisted =>
        rw [ih]
        constructor
        . rintro ⟨hle, _⟩
          omega
        . simp [hlisted]
    . have hlater : k ∈ listedFrom (j + 1) rest ↔
          j ≤ k ∧ ((e :: rest)[k - j]?).any (·.listed) = true := by
        rw [ih]
        by_cases hle : j + 1 ≤ k
        . have hsub : k - j = k - (j + 1) + 1 := by omega
          rw [hsub, List.getElem?_cons_succ]
          simp [hle, Nat.le_of_succ_le hle]
        . have hnot : ¬ j ≤ k := by omega
          simp [hle, hnot]
      split
      . rw [List.mem_cons, hlater]
        simp [hk]
      . exact hlater

end Stops

/-- Who reads stream `i` gets these events from now on, and then the stream ends. -/
def Finishes (s : Server) (i : Nat) (events : List IncomingEvent) : Prop :=
  ∀ later, ∃ b, (s.run later).room.boxes[i]? = some b ∧ b.hasSender = false ∧
    trace (received i) s (s.history later) ++ b.pending <+: events ∧
    (b.hasReader = true → trace (received i) s (s.history later) ++ b.pending = events)

/-- A client of the listed console `c` holds stream `i`, whose mailbox is `b`. -/
def Connected (s : Server) (c : Console) (i : Nat) (b : Mailbox) : Prop :=
  ∃ k id m, s.lobby.isListed k = true ∧ s.lobby.console? k = some c ∧
    c.members.get? id = some m ∧ m.mailbox = some i ∧ s.room.boxes[i]? = some b

/-- What the shutdown of a server is to its consoles, their clients and all streams. -/
structure ShutsDown (s s' : Server) : Prop where
  isListed : ∀ k, s'.lobby.isListed k = s.lobby.isListed k
  listed : ∀ k c, s.lobby.isListed k = true → s.lobby.console? k = some c →
    s'.lobby.console? k = some c.stopped
  unlisted : ∀ k, s.lobby.isListed k = false → s'.lobby.console? k = s.lobby.console? k
  done : ∀ k c', s'.lobby.isListed k = true → s'.lobby.console? k = some c' →
    c'.status = .done ∧ ∀ id m', c'.members.get? id = some m' → m'.status = .done ∧ m'.mailbox = none
  roomy : ∀ c i b, s.Connected c i b → b.hasReader = true → b.pending.length < b.capacity →
    s'.Finishes i (b.pending ++ [{ stop := some { consoleId := c.id.value } }])
  full : ∀ c i b, s.Connected c i b → b.hasReader = false ∨ b.capacity ≤ b.pending.length →
    s'.Finishes i b.pending
  unbound : ∀ i, s.boundTo i = none → s'.room.boxes[i]? = s.room.boxes[i]?
  streams : s'.streams = s.streams

section Shutdown

variable {s s' : Server} {k : Nat} {ks : List Nat} {i : Nat}

theorem finishes_of_box (h : s.Consistent) (hdead : ¬ s.Live i) {b : Mailbox}
    (hb : s.room.boxes[i]? = some b) (hsender : b.hasSender = false) : s.Finishes i b.pending := by
  intro later
  rw [run_eq_performAll]
  rcases drained_performAll h hdead hb (s.history later) with ⟨_, b', hb', hsender', horder, hall⟩
  refine ⟨b', hb', ?_, horder, fun hread => (hall hread).2⟩
  cases hs : b'.hasSender with
  | false => rfl
  | true => rw [hsender' hs] at hsender; simp at hsender

theorem stops_shutDown (h : s.Consistent)
    : s.Stops s.shutDown (listedFrom 0 s.lobby.consoles) := by
  have hstops := stops_performAll h (listedFrom 0 s.lobby.consoles)
  rw [shutDown_eq_performAll, performAll_append]
  exact ⟨hstops.console, hstops.held, hstops.free, hstops.streams, hstops.isListed⟩

theorem consistent_shutDown (h : s.Consistent) : s.shutDown.Consistent := by
  rw [shutDown_eq_performAll]
  exact consistent_performAll h _

theorem mem_listedFrom_zero : k ∈ listedFrom 0 s.lobby.consoles ↔ s.lobby.isListed k = true := by
  rw [mem_listedFrom]
  simp [Lobby.isListed]

/-- A stream that a client of a stopped console held gets nothing but what is in its mailbox by then. -/
theorem finishes_of_connected (h : s.Consistent) {c : Console} {b : Mailbox}
    (hconnected : s.Connected c i b) : s.shutDown.Finishes i (b.post c.stopEvent).2.pending := by
  rcases hconnected with ⟨k, id, m, hlisted, hc, hm, hi, hb⟩
  have hstops := stops_shutDown h
  have hk : k ∈ listedFrom 0 s.lobby.consoles := mem_listedFrom_zero.2 hlisted
  have hcons := consistent_shutDown h
  have hbound : s.shutDown.boundTo i = some ⟨k, id⟩ := by
    unfold boundTo
    rw [hstops.streams]
    exact h.boundTo_of_holds ⟨c, m, hc, hm, hi⟩
  have hdead : ¬ s.shutDown.Live i := by
    rw [hcons.live_iff_of_bound hbound, hstops.holds_iff]
    exact fun hholds => hholds.2 hk
  have hfinishes := finishes_of_box hcons hdead (hstops.held k hk c id m i b hc hm hi hb) rfl
  exact hfinishes

theorem shutsDown (h : s.Consistent) : s.ShutsDown s.shutDown := by
  have hstops := stops_shutDown h
  have hlisted : ∀ k c, s.lobby.isListed k = true → s.lobby.console? k = some c →
      s.shutDown.lobby.console? k = some c.stopped := by
    intro k c hlisted hc
    rw [hstops.console, hc, Option.map_some, if_pos (mem_listedFrom_zero.2 hlisted)]
  constructor
  case isListed => exact hstops.isListed
  case listed => exact hlisted
  case unlisted =>
    intro k hnot
    rw [hstops.console]
    simp [mem_listedFrom_zero, hnot]
  case done =>
    intro k c' hk hc'
    rw [hstops.isListed] at hk
    rcases Lobby.console?_of_isListed hk with ⟨c, hc⟩
    rw [hlisted k c hk hc, Option.some.injEq] at hc'
    subst hc'
    refine ⟨rfl, ?_⟩
    intro id m' hm'
    rcases Console.get?_stopped hm' with ⟨m, _, rfl⟩
    exact ⟨rfl, rfl⟩
  case roomy =>
    intro c i b hconnected hreader hroom
    have hfinishes := finishes_of_connected h hconnected
    rwa [Mailbox.pending_post, if_pos (Mailbox.post_eq_delivered_iff.2 ⟨hreader, hroom⟩)] at hfinishes
  case full =>
    intro c i b hconnected hfull
    have hfinishes := finishes_of_connected h hconnected
    rwa [Mailbox.pending_post, if_neg] at hfinishes
    rw [Mailbox.post_eq_delivered_iff]
    rintro ⟨hreader, hroom⟩
    rcases hfull with hgone | hfull
    . simp [hgone] at hreader
    . omega
  case unbound =>
    intro i hnone
    apply hstops.free
    intro k _ id hholds
    rw [h.boundTo_of_holds hholds] at hnone
    simp at hnone
  case streams => exact hstops.streams

/-- What is on the list was on it all the time. -/
theorem isListed_performAll (acts : List Act) {c : Console} (hc : s.lobby.console? k = some c)
    (hlisted : (s.performAll acts).lobby.isListed k = true) : s.lobby.isListed k = true := by
  induction acts generalizing s c with
  | nil => exact hlisted
  | cons a acts ih =>
    rcases console?_perform_of_some hc a with ⟨c', hc', _⟩
    exact isListed_perform hc (ih hc' hlisted)

/-- Nobody whose console was on the list holds a mailbox after a shutdown until a stream is bound. -/
theorem not_holds_of_shutDown (h : s.Consistent) (later : List Operation)
    (hsame : ∀ i, (s.shutDown.run later).boundTo i = s.shutDown.boundTo i)
    (hlisted : (s.shutDown.run later).lobby.isListed k = true) (id : ClientId)
    : ¬ (s.shutDown.run later).Holds k id i := by
  intro hholds
  have hcons := consistent_shutDown h
  have hbound : s.shutDown.boundTo i = some ⟨k, id⟩ := by
    rw [← hsame]
    rw [run_eq_performAll] at hholds ⊢
    exact (consistent_performAll hcons _).boundTo_of_holds hholds
  -- A stream that was dead right after the shutdown can not be held later.
  have hholds' : s.shutDown.Holds k id i := by
    rw [← hcons.live_iff_of_bound hbound]
    rcases boundTo_eq_some_iff.1 hbound with ⟨stream, hstream, _⟩
    rcases hcons.box hstream with ⟨b, hb⟩
    apply Classical.byContradiction
    intro hdead
    rw [run_eq_performAll] at hholds
    exact (drained_performAll hcons hdead hb _).1 (Or.inl ⟨k, id, hholds⟩)
  rcases hholds' with ⟨c, m, hc, hm, hi⟩
  rw [run_eq_performAll] at hlisted
  have hnone := (((shutsDown h).done k c (isListed_performAll _ hc hlisted) hc).2 id m hm).2
  simp [hi] at hnone

theorem room_shutDown_of_not_holds (h : s.Consistent)
    (hnobody : ∀ k, s.lobby.isListed k = true → ∀ id i, ¬ s.Holds k id i)
    : s.shutDown.room = s.room := by
  have hboxes : s.shutDown.room.boxes = s.room.boxes := by
    apply List.ext_getElem?
    intro j
    apply (stops_shutDown h).free
    exact fun k hk id => hnobody k (mem_listedFrom_zero.1 hk) id j
  exact congrArg Mailroom.mk hboxes

theorem testMode_perform (s : Server) (a : Act) : (s.perform a).testMode = s.testMode := by
  cases a with
  | create title romName romHash => rfl
  | prune => rfl
  | halt => rfl
  | _ => exact (setsOne_perform (by simp) (by simp) (by simp)).testMode

theorem testMode_run (testMode : Bool) (limit : Option Nat) (ops : List Operation)
    : ((initial testMode limit).run ops).testMode = testMode :=
  run_induction (P := fun s => s.testMode = testMode)
    (fun s a hs => (testMode_perform s a).trans hs) rfl ops

theorem stopping_run (hs : s.stopping = true) (ops : List Operation) : (s.run ops).stopping = true := by
  apply run_induction (P := fun s => s.stopping = true) _ hs
  intro s a hs
  by_cases ha : a = .halt
  . subst ha
    rfl
  . rw [stopping_perform ha, hs]

end Shutdown

/--
A server that is not in test mode is not shut down. Otherwise everything that is on the list is over, and
each stream of its clients is told so if there is room and then ends. Shutting down once more tells nobody
anything unless a stream was bound meanwhile.
-/
theorem shutdown_all_or_nothing (limit : Option Nat) (ops : List Operation) (request : ShutDownRequest)
    : let calm := (initial false limit).run ops
      let s := (initial true limit).run ops
      let s' := (s.shutDownServer request).2
      calm.shutDownServer request = ({ willDie := false }, calm) ∧
        (s.shutDownServer request).1 = { willDie := true } ∧ s.ShutsDown s' ∧
        (∀ later, (s'.run later).stopping = true) ∧
        ∀ later, (∀ i, (s'.run later).boundTo i = s'.boundTo i) →
          ((s'.run later).shutDownServer request).2.room = (s'.run later).room := by
  intro calm s s'
  have hmode : s.testMode = true := testMode_run true limit ops
  have hcons : s.Consistent := consistent_run true limit ops
  have hanswer : s.shutDownServer request = ({ willDie := true }, s.shutDown) := by
    unfold shutDownServer
    rw [if_pos hmode]
  have hshut : s' = s.shutDown := by
    unfold s'
    rw [hanswer]
  refine ⟨?_, ?_, ?_, ?_, ?_⟩
  . have hmode : calm.testMode = false := testMode_run false limit ops
    unfold shutDownServer
    rw [if_neg (by simp [hmode])]
  . rw [hanswer]
  . rw [hshut]
    exact shutsDown hcons
  . intro later
    rw [hshut]
    exact stopping_run rfl later
  . intro later hsame
    rw [hshut] at hsame ⊢
    have hlater : (s.shutDown.run later).Consistent := by
      rw [run_eq_performAll]
      exact consistent_performAll (consistent_shutDown hcons) _
    unfold shutDownServer
    split
    . apply room_shutDown_of_not_holds hlater
      exact fun k hk id i => not_holds_of_shutDown hcons later hsame hk id
    . rfl

/-- A client that has not read the latest keys still gets them and then the end, and no second one. -/
theorem shutdown_all_or_nothing_exchange
    : let s := (initial true none).run exchange
      let s' := (s.shutDownServer {}).2
      s'.Finishes 1 [{ keys := [{ consoleId := 1, port := 1, frame := 0 }] },
        { stop := some { consoleId := 1 } }] ∧
      (s'.shutDownServer {}).2.room = s'.room := by
  intro s s'
  have hlisted : s.lobby.isListed 0 = true := by decide +kernel
  have hid : (s.lobby.console? 0).map (·.id) = some ⟨1⟩ := by decide +kernel
  have hholds : ((s.lobby.console? 0).bind fun c =>
      (c.members.get? ⟨2⟩).bind (·.mailbox)) = some 1 := by decide +kernel
  have hbox : s.room.boxes[1]? = some {
      capacity := 1024
      pending := [{ keys := [{ consoleId := 1, port := 1, frame := 0 }] }] } := by decide +kernel
  simp only [Option.bind_eq_some_iff] at hholds
  rcases hholds with ⟨c, hc, m, hm, hi⟩
  have hid : c.id = ⟨1⟩ := by
    rw [hc] at hid
    simpa using hid
  rcases shutdown_all_or_nothing none exchange {} with ⟨_, _, hshut, _, hsecond⟩
  have hfinishes := hshut.roomy c 1 _ ⟨0, ⟨2⟩, m, hlisted, hc, hm, hi, hbox⟩ rfl (by decide)
  rw [hid] at hfinishes
  exact ⟨hfinishes, hsecond [] fun _ => rfl⟩

end Server
end PadRelay
