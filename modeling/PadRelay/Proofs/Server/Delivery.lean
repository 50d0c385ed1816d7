import PadRelay.Proofs.Server.Bindings

/-!
This module contains the proof that streams lose nothing in the middle. What is read from a stream is
a prefix of what its client was sent, and it is all of it as long as the client holds the mailbox of the
stream and the stream has a reader.
-/

namespace PadRelay
namespace Server

def history (s : Server) : List Operation → List Act
  | [] => []
  | op :: ops => s.acts op ++ (s.step op).history ops

theorem run_eq_performAll (s : Server) (ops : List Operation)
    : s.run ops = s.performAll (s.history ops) := by
  induction ops generalizing s with
  | nil => rfl
  | cons op ops ih =>
    unfold history
    rw [run_cons, performAll_append, ih, step_eq_performAll]

theorem history_append (s : Server) (ops ops' : List Operation)
    : s.history (ops ++ ops') = s.history ops ++ (s.run ops).history ops' := by
  induction ops generalizing s with
  | nil => rfl
  | cons op ops ih => simp [history, ih]

/-- What happens in a number of acts, as far as `f` tells it from each of them. -/
def trace (f : Server → Act → List IncomingEvent) (s : Server) : List Act → List IncomingEvent
  | [] => []
  | a :: acts => f s a ++ trace f (s.perform a) acts

theorem trace_append (f : Server → Act → List IncomingEvent) (s : Server) (acts acts' : List Act)
    : trace f s (acts ++ acts') = trace f s acts ++ trace f (s.performAll acts) acts' := by
  induction acts generalizing s with
  | nil => rfl
  | cons a acts ih => simp [trace, ih]

theorem trace_history_append (f : Server → Act → List IncomingEvent) (s : Server)
    (ops ops' : List Operation)
    : trace f s (s.history (ops ++ ops'))
        =
      trace f s (s.history ops) ++ trace f (s.run ops) ((s.run ops).history ops') := by
  rw [history_append, trace_append, ← run_eq_performAll]

/-- What the console at position `k` addresses to its client `id` in an act. -/
def addresses (s : Server) (k : Nat) (id : ClientId) (a : Act) : Option IncomingEvent :=
  (s.lobby.console? k).bind fun c =>
    match a with
    | .start j => if j = k ∧ c.status = .created ∧ c.allReady then some c.startEvent else none
    | .stop j => if j = k then some c.stopEvent else none
    | .handle i e =>
      match s.boundTo i with
      | none => none
      | some b => if b.console = k then c.addressed b.clientId e id else none
    | _ => none

/-- What is addressed in an act to the client that stream `i` is bound to. -/
def addressed (i : Nat) (s : Server) (a : Act) : List IncomingEvent :=
  match s.boundTo i with
  | none => []
  | some b => (s.addresses b.console b.clientId a).toList

/-- The refusal that stream `i` is sent in an act while it is anonymous. -/
def answered (i : Nat) (s : Server) : Act → List IncomingEvent
  | .reply j consoleId status =>
    match s.streams[j]? with
    | none => []
    | some stream =>
      match stream.sink with
      | none => []
      | some box =>
        let e := refusalEvent (refusal consoleId .unknown status)
        if j = i ∧ (s.room.post box e).1 = .delivered then [e] else []
  | _ => []

/-- What is read from stream `i` in an act. -/
def received (i : Nat) (s : Server) : Act → List IncomingEvent
  | .take j n => if j = i then (s.take j n).1 else []
  | _ => []

/-- Somebody may still post to the mailbox of stream `i`. -/
def Live (s : Server) (i : Nat) : Prop :=
  (∃ k id, s.Holds k id i) ∨ ∃ stream, s.streams[i]? = some stream ∧ stream.sink = some i

theorem Consistent.live_iff_of_bound {s : Server} (h : s.Consistent) {i : Nat} {b : Binding}
    (hb : s.boundTo i = some b) : s.Live i ↔ s.Holds b.console b.clientId i := by
  constructor
  . rintro (⟨k, id, hh⟩ | ⟨stream, hstream, hsink⟩)
    . have := h.boundTo_of_holds hh
      rw [hb, Option.some.injEq] at this
      rw [this]
      exact hh
    . have := (h.sink i stream i hstream hsink).2.1
      rw [boundTo_eq_some_iff] at hb
      rcases hb with ⟨stream', hstream', hb⟩
      rw [hstream, Option.some.injEq] at hstream'
      rw [← hstream', this] at hb
      simp at hb
  . intro hh
    exact Or.inl ⟨_, _, hh⟩

theorem member_of_holds {s : Server} {k : Nat} {id : ClientId} {i : Nat} (h : s.Holds k id i)
    {c : Console} (hc : s.lobby.console? k = some c)
    : ∃ m, c.members.get? id = some m ∧ m.mailbox = some i := by
  rcases h with ⟨c', m, hc', hm, hi⟩
  rw [hc, Option.some.injEq] at hc'
  exact ⟨m, hc' ▸ hm, hi⟩

/--
What one act means for the mailbox of stream `i`, from which `taken` is read while `due` is sent: what
is pending afterwards is what was pending before and what was sent, unless the client can no longer be
sent anything or nobody reads any more, and then nothing is added.
-/
structure Delivers (s s' : Server) (i : Nat) (taken due : List IncomingEvent) (b b' : Mailbox) :
    Prop where
  live : s'.Live i → s.Live i
  reader : b'.hasReader = true → b.hasReader = true
  sender : b'.hasSender = true → b.hasSender = true
  order : taken ++ b'.pending <+: b.pending ++ due
  all : s'.Live i → b'.hasReader = true → taken ++ b'.pending = b.pending ++ due
  rest : ¬ (s.Live i ∧ b.hasReader = true) → taken ++ b'.pending <+: b.pending ∧
    (b'.hasReader = true → taken ++ b'.pending = b.pending)
  fits : due ≠ [] → s.Live i → b.hasReader = true → b.pending.length < b.capacity →
    b'.pending = b.pending ++ due
  full : due ≠ [] → s.Live i → b.hasReader = true → b.capacity ≤ b.pending.length →
    ¬ s'.Live i ∧ b'.hasSender = false ∧ b'.pending = b.pending

theorem Delivers.of_pending {s s' : Server} {i : Nat} {b b' : Mailbox}
    (hlive : s'.Live i → s.Live i) (hpending : b'.pending = b.pending)
    (hreader : b'.hasReader = b.hasReader)
    (hsender : b'.hasSender = true → b.hasSender = true) : Delivers s s' i [] [] b b' where
  live := hlive
  reader := by
    rw [hreader]
    exact id
  sender := hsender
  order := by simp [hpending]
  all _ _ := by simp [hpending]
  rest _ := by simp [hpending]
  fits hdue := absurd rfl hdue
  full hdue := absurd rfl hdue

theorem Delivers.of_same {s s' : Server} {i : Nat} (hlive : s'.Live i → s.Live i) (b : Mailbox)
    : Delivers s s' i [] [] b b :=
  .of_pending hlive rfl rfl id

theorem live_room {s : Server} {room : Mailroom} {i : Nat} : Live { s with room } i ↔ s.Live i :=
  Iff.rfl

theorem Delivers.of_room {s : Server} {room : Mailroom} {i : Nat} (b : Mailbox)
    : Delivers s { s with room } i [] [] b b :=
  .of_same live_room.1 b

theorem Delivers.weaken {s s' s'' : Server} {i : Nat} {taken due : List IncomingEvent}
    {b b' : Mailbox} (h : Delivers s s' i taken due b b') (hlive : s''.Live i → s'.Live i)
    : Delivers s s'' i taken due b b' where
  live hl := h.live (hlive hl)
  reader := h.reader
  sender := h.sender
  order := h.order
  all hl := h.all (hlive hl)
  rest := h.rest
  fits := h.fits
  full hdue hl hread hfull :=
    have ⟨hnot, hsame⟩ := h.full hdue hl hread hfull
    ⟨fun hl => hnot (hlive hl), hsame⟩

theorem Delivers.of_not_live {s s' : Server} {i : Nat} (h : ¬ s.Live i) (h' : ¬ s'.Live i)
    (due : List IncomingEvent) (b : Mailbox) : Delivers s s' i [] due b b where
  live hlive := absurd hlive h'
  reader := id
  sender := id
  order := List.prefix_append _ _
  all hlive := absurd hlive h'
  rest _ := ⟨List.prefix_refl _, fun _ => rfl⟩
  fits _ hlive := absurd hlive h
  full _ hlive := absurd hlive h

theorem Delivers.of_post {s s' : Server} {i : Nat} {b : Mailbox} {posted : Option IncomingEvent}
    {fate : Member.Fate} (hlive : s.Live i)
    (hlive' : s'.Live i → Member.keepsMailbox b posted fate = true)
    : Delivers s s' i [] posted.toList b
        (if Member.keepsMailbox b posted fate then (b.postAny posted).2
          else (b.postAny posted).2.closeSender) := by
  generalize hb' : (if Member.keepsMailbox b posted fate then (b.postAny posted).2
    else (b.postAny posted).2.closeSender) = b'
  have hreader : b'.hasReader = b.hasReader := by
    rw [← hb']
    split <;> simp [Mailbox.closeSender]
  have hpending : b'.pending = (b.postAny posted).2.pending := by
    rw [← hb']
    split <;> simp [Mailbox.closeSender]
  rw [Mailbox.pending_postAny] at hpending
  constructor
  . exact fun _ => hlive
  . rw [hreader]
    exact id
  . rw [← hb']
    split <;> simp [Mailbox.closeSender]
  . rw [hpending]
    split
    . simp
    . simp
  . intro h hread
    rw [hreader] at hread
    have hkeeps := Member.keepsMailbox_iff.1 (hlive' h)
    rw [hpending, if_pos (Mailbox.postAny_eq_delivered hread hkeeps.1)]
    rfl
  . intro hnot
    have hnone : b.hasReader = false := by
      cases hb : b.hasReader with
      | false => rfl
      | true => exact absurd ⟨hlive, hb⟩ hnot
    have hsame : b'.pending = b.pending := by
      rw [hpending, ← Mailbox.pending_postAny, Mailbox.pending_postAny_of_hasReader hnone]
    rw [hsame]
    exact ⟨List.prefix_refl _, fun _ => rfl⟩
  . intro _ _ hread hroom
    have hnot : (b.postAny posted).1 ≠ .full := by
      cases posted with
      | none => simp [Mailbox.postAny]
      | some e =>
        unfold Mailbox.postAny
        rw [ne_eq, Mailbox.post_eq_full_iff]
        omega
    rw [hpending, if_pos (Mailbox.postAny_eq_delivered hread hnot)]
  . intro hdue _ hread hroom
    -- Who does not keep up is disconnected right away, so nothing can follow the event that is lost.
    have hfull : (b.postAny posted).1 = .full := by
      cases posted with
      | none => exact absurd rfl hdue
      | some e =>
        unfold Mailbox.postAny
        rw [Mailbox.post_eq_full_iff]
        exact ⟨hread, hroom⟩
    have hkeeps : Member.keepsMailbox b posted fate ≠ true := by
      rw [ne_eq, Member.keepsMailbox_iff]
      exact fun hkeeps => hkeeps.1 hfull
    refine ⟨fun hlive => hkeeps (hlive' hlive), ?_, ?_⟩
    . rw [← hb', if_neg hkeeps]
      rfl
    . rw [hpending, hfull]
      rfl

section Update

variable {s : Server} {k : Nat} {c : Console} {r : Console × Mailroom}

theorem live_update {f : ClientId → Member → Mailroom → Member × Mailroom}
    (hc : s.lobby.console? k = some c) (hf : ∀ id, Member.Confined (f id))
    (hs : c.Serves f s.room r) {i : Nat} (hlive : (s.update k r).Live i) : s.Live i := by
  rcases hlive with ⟨j, id, hh⟩ | hsink
  . exact Or.inl ⟨j, id, holds_update hc hf hs hh⟩
  . exact Or.inr hsink

variable {ready : ClientId → Bool} {posted : ClientId → Option IncomingEvent}
variable {fate : ClientId → Member.Fate}

theorem keepsMailbox_of_holds (hc : s.lobby.console? k = some c)
    (hs : c.Serves (fun id => Member.undergo (ready id) (posted id) (fate id)) s.room r)
    {id : ClientId} {m : Member} (hm : c.members.get? id = some m) {i : Nat}
    (hi : m.mailbox = some i) {b : Mailbox} (hb : s.room.boxes[i]? = some b)
    (hh : (s.update k r).Holds k id i) : Member.keepsMailbox b (posted id) (fate id) = true := by
  rcases hh with ⟨c', m', hc', hm', hi'⟩
  rw [update, Lobby.console?_set_self hc, Option.some.injEq] at hc'
  rw [← hc', hs.member, hm, Option.map_some, Option.some.injEq] at hm'
  rw [← hm', Member.undergo_mailbox hi hb] at hi'
  split at hi'
  . next hkeeps => exact hkeeps
  . simp at hi'

/-- What is addressed to the client of stream `i` if the console at position `k` addresses `posted`. -/
def addressedBy (s : Server) (k : Nat) (posted : ClientId → Option IncomingEvent) (i : Nat) :
    List IncomingEvent :=
  match s.boundTo i with
  | none => []
  | some b => if b.console = k then (posted b.clientId).toList else []

theorem delivers_update (h : s.Consistent) (hc : s.lobby.console? k = some c)
    (hs : c.Serves (fun id => Member.undergo (ready id) (posted id) (fate id)) s.room r) {i : Nat}
    {b : Mailbox} (hb : s.room.boxes[i]? = some b)
    : ∃ b', (s.update k r).room.boxes[i]? = some b' ∧
        Delivers s (s.update k r) i [] (s.addressedBy k posted i) b b' := by
  have hconf : ∀ id, Member.Confined (Member.undergo (ready id) (posted id) (fate id)) := by
    intro id
    apply Member.confined_undergo
  have hlive := fun hl => live_update (i := i) hc hconf hs hl
  -- Either a member of this console holds the mailbox, and then it is treated as that member is, or
  -- it is left alone.
  by_cases hh : ∃ id, s.Holds k id i
  . rcases hh with ⟨id, hh⟩
    have hbound := h.boundTo_of_holds hh
    have hdue : s.addressedBy k posted i = (posted id).toList := by
      simp [addressedBy, hbound]
    rcases member_of_holds hh hc with ⟨m, hm, hi⟩
    refine ⟨_, (hs.box id m i hm hi).trans (Member.undergo_box hi hb _ _ _), ?_⟩
    rw [hdue]
    apply Delivers.of_post (Or.inl ⟨k, id, hh⟩)
    intro hl
    have hcons := h.update hc hconf hs
    rw [hcons.live_iff_of_bound (b := ⟨k, id⟩) hbound] at hl
    exact keepsMailbox_of_holds hc hs hm hi hb hl
  . have hbox : (s.update k r).room.boxes[i]? = some b := by
      rw [← hb]
      apply hs.other i
      intro id m hm hi
      exact hh ⟨id, c, m, hc, hm, hi⟩
    refine ⟨b, hbox, ?_⟩
    unfold addressedBy
    cases hbound : s.boundTo i with
    | none => exact Delivers.of_same hlive b
    | some bd =>
      dsimp
      split
      . next heq =>
        have hdead : ¬ s.Live i := by
          intro hl
          have := (h.live_iff_of_bound hbound).1 hl
          rw [heq] at this
          exact hh ⟨_, this⟩
        exact Delivers.of_not_live hdead (fun hl => hdead (hlive hl)) _ b
      . exact Delivers.of_same hlive b

end Update

section Acts

variable {s : Server} {i : Nat} {b : Mailbox}

theorem addressed_eq_nil {a : Act} (h : ∀ k id, s.addresses k id a = none)
    : s.addressed i a = [] := by
  unfold addressed
  split
  . rfl
  . rw [h]
    rfl

theorem addressed_of_console {a : Act} {k : Nat} {p : ClientId → Option IncomingEvent}
    (hother : ∀ j id, j ≠ k → s.addresses j id a = none) (hself : ∀ id, s.addresses k id a = p id)
    : s.addressed i a = s.addressedBy k p i := by
  unfold addressed addressedBy
  split
  . rfl
  . next bd _ =>
    split
    . next heq => rw [heq, hself]
    . next hne => simp [hother _ _ hne]

theorem addresses_start (k j : Nat) (id : ClientId)
    : s.addresses j id (.start k)
        =
      if k = j then
        (s.lobby.console? k).bind fun c =>
          if c.status = .created ∧ c.allReady then some c.startEvent else none
      else none := by
  unfold addresses
  dsimp
  split
  . next heq => simp [heq]
  . next hne => simp [hne]

theorem addresses_stop (k j : Nat) (id : ClientId)
    : s.addresses j id (.stop k)
        =
      if k = j then (s.lobby.console? k).map (·.stopEvent) else none := by
  unfold addresses
  dsimp
  split
  . next heq =>
    rw [heq]
    cases s.lobby.console? j <;> rfl
  . simp

theorem addresses_handle (j : Nat) (e : OutgoingEvent) (k : Nat) (id : ClientId)
    : s.addresses k id (.handle j e)
        =
      (s.boundTo j).bind fun bd =>
        if bd.console = k then
          (s.lobby.console? k).bind fun c => c.addressed bd.clientId e id
        else none := by
  unfold addresses
  dsimp
  cases s.boundTo j with
  | none => simp
  | some bd =>
    dsimp
    split <;> simp

theorem start_eq_error {c : Console} {room : Mailroom} {e : StartError}
    (h : c.start room = .error e) : ¬ (c.status = .created ∧ c.allReady = true) := by
  rintro ⟨hstatus, hready⟩
  simp [Console.start, hstatus, hready] at h

theorem delivers_start (h : s.Consistent) (k : Nat) (hb : s.room.boxes[i]? = some b)
    : ∃ b', (s.perform (.start k)).room.boxes[i]? = some b' ∧
        Delivers s (s.perform (.start k)) i [] (s.addressed i (.start k)) b b' := by
  cases hc : s.lobby.console? k with
  | none =>
    rw [addressed_eq_nil (by simp [addresses_start, hc])]
    simp only [perform, hc]
    exact ⟨b, hb, .of_same id b⟩
  | some c =>
    cases hr : c.start s.room with
    | error e =>
      have hnot := start_eq_error hr
      rw [addressed_eq_nil (by simp [addresses_start, hc, hnot])]
      simp only [perform, hc, hr]
      exact ⟨b, hb, .of_same id b⟩
    | ok r =>
      simp only [perform, hc, hr]
      rcases start_eq_ok hr with ⟨hstatus, hready, rfl⟩
      rw [addressed_of_console (p := fun _ => some c.startEvent) (k := k)]
      . exact delivers_update h hc (Console.serves_broadcastStart (h.separate hc) s.room) hb
      . intro j id hne
        have : k ≠ j := fun heq => hne heq.symm
        simp [addresses_start, this]
      . intro id
        simp [addresses_start, hc, hstatus, hready]

theorem delivers_stop (h : s.Consistent) (k : Nat) (hb : s.room.boxes[i]? = some b)
    : ∃ b', (s.perform (.stop k)).room.boxes[i]? = some b' ∧
        Delivers s (s.perform (.stop k)) i [] (s.addressed i (.stop k)) b b' := by
  cases hc : s.lobby.console? k with
  | none =>
    rw [addressed_eq_nil (by simp [addresses_stop, hc])]
    simp only [perform, hc]
    exact ⟨b, hb, .of_same id b⟩
  | some c =>
    simp only [perform, hc]
    rw [addressed_of_console (p := fun _ => some c.stopEvent) (k := k)]
    . exact delivers_update h hc (Console.serves_stop (h.separate hc) s.room) hb
    . intro j id hne
      have : k ≠ j := fun heq => hne heq.symm
      simp [addresses_stop, this]
    . intro id
      simp [addresses_stop, hc]

theorem delivers_handle (h : s.Consistent) (j : Nat) (e : OutgoingEvent)
    (hb : s.room.boxes[i]? = some b)
    : ∃ b', (s.perform (.handle j e)).room.boxes[i]? = some b' ∧
        Delivers s (s.perform (.handle j e)) i [] (s.addressed i (.handle j e)) b b' := by
  cases hbound : s.boundTo j with
  | none =>
    rw [addressed_eq_nil (by simp [addresses_handle, hbound])]
    simp only [perform, hbound]
    exact ⟨b, hb, .of_same id b⟩
  | some bd =>
    rcases h.bound j bd hbound with ⟨c, _, hc, _⟩
    simp only [perform, hbound, dispatch, hc]
    rw [addressed_of_console (p := c.addressed bd.clientId e) (k := bd.console)]
    . exact delivers_update h hc (Console.serves_handle (h.separate hc) bd.clientId e s.room) hb
    . intro k id hne
      have : bd.console ≠ k := fun heq => hne heq.symm
      simp [addresses_handle, hbound, this]
    . intro id
      simp [addresses_handle, hbound, hc]

theorem sink_setStream {j : Nat} {stream stream' : EventStream}
    (hstream : s.streams[j]? = some stream) (hsink : stream'.sink = none)
    (h : ∃ x, (s.setStream j stream').streams[i]? = some x ∧ x.sink = some i)
    : ∃ x, s.streams[i]? = some x ∧ x.sink = some i := by
  rcases h with ⟨x, hi, hi'⟩
  rw [getElem?_setStream hstream] at hi
  split at hi
  . rw [Option.some.injEq] at hi
    rw [← hi, hsink] at hi'
    simp at hi'
  . exact ⟨x, hi, hi'⟩

theorem live_setStream {j : Nat} {stream stream' : EventStream}
    (hstream : s.streams[j]? = some stream) (hsink : stream'.sink = none)
    (hlive : (s.setStream j stream').Live i) : s.Live i := by
  rcases hlive with hh | h
  . exact Or.inl hh
  . exact Or.inr (sink_setStream hstream hsink h)

theorem delivers_close (h : s.Consistent) (j : Nat) (hb : s.room.boxes[i]? = some b)
    : ∃ b', (s.closeStream j).room.boxes[i]? = some b' ∧
        Delivers s (s.closeStream j) i [] [] b b' := by
  cases hstream : s.streams[j]? with
  | none =>
    simp only [closeStream, hstream]
    exact ⟨b, hb, .of_same id b⟩
  | some stream =>
    cases hbound : stream.binding with
    | some bd =>
      rcases h.bound j bd (boundTo_eq_some_iff.2 ⟨stream, hstream, hbound⟩) with ⟨c, _, hc, _⟩
      have hserves := Console.serves_streamClosed (h.separate hc) bd.clientId s.room
      have hnil : s.addressedBy bd.console (fun _ => none) i = [] := by
        unfold addressedBy
        split <;> simp
      rcases delivers_update h hc hserves hb with ⟨b', hb', hdelivers⟩
      rw [hnil] at hdelivers
      rw [closeStream_eq hstream hbound hc]
      refine ⟨b', hb', hdelivers.weaken ?_⟩
      intro hlive
      exact live_setStream (s := s.update bd.console _) hstream rfl hlive
    | none =>
      have hlive : ∀ {room : Mailroom}, Live { (s.setStream j
          { stream with sink := none, isOpen := false, partialFrame := [] }) with room } i →
            s.Live i :=
        fun hlive => live_setStream hstream rfl hlive
      rw [hbound] at hlive
      cases hsink : stream.sink with
      | none =>
        simp only [closeStream, hstream, hbound, hsink]
        exact ⟨b, hb, .of_same hlive b⟩
      | some box =>
        simp only [closeStream, hstream, hbound, hsink]
        rw [Mailroom.getElem?_closeSender]
        split
        . refine ⟨b.closeSender, by simp [setStream, hb], ?_⟩
          apply Delivers.of_pending hlive
          . rfl
          . rfl
          . simp [Mailbox.closeSender]
        . exact ⟨b, hb, .of_same hlive b⟩

theorem delivers_reply (h : s.Consistent) (j : Nat) (consoleId : Int64)
    (status : InvalidDataStatus) (hb : s.room.boxes[i]? = some b)
    : ∃ b', (s.perform (.reply j consoleId status)).room.boxes[i]? = some b' ∧
        Delivers s (s.perform (.reply j consoleId status)) i []
          (s.answered i (.reply j consoleId status)) b b' := by
  cases hstream : s.streams[j]? with
  | none =>
    simp only [perform, answered, hstream]
    exact ⟨b, hb, .of_same id b⟩
  | some stream =>
    cases hsink : stream.sink with
    | none =>
      simp only [perform, answered, replyAnonymous, hstream, hsink]
      exact ⟨b, hb, .of_same id b⟩
    | some box =>
      simp only [perform, answered, replyAnonymous, hstream, hsink]
      generalize refusalEvent (refusal consoleId .unknown status) = e
      have hbox := (h.sink j stream box hstream hsink).1
      subst hbox
      by_cases heq : box = i
      . subst heq
        have hlive : s.Live box := Or.inr ⟨stream, hstream, hsink⟩
        have hlt := (List.getElem?_eq_some_iff.1 hb).1
        have hpending := Mailbox.pending_post b e
        simp only [Mailroom.post_of_getElem? hb]
        refine ⟨(b.post e).2, by simp [hlt], ?_⟩
        constructor
        . exact fun _ => hlive
        . simp
        . simp
        . rw [hpending]
          split <;> simp_all
        . intro _ _
          rw [hpending]
          split <;> simp_all
        . intro hnot
          have hgone : (b.post e).1 ≠ .delivered := by
            rw [ne_eq, Mailbox.post_eq_delivered_iff]
            exact fun hread => hnot ⟨hlive, hread.1⟩
          simp [hpending, hgone]
        . intro _ _ hread hroom
          have := Mailbox.post_eq_delivered_iff (e := e).2 ⟨hread, hroom⟩
          simp [hpending, this]
        . intro hdue _ hread hroom
          have hgone : (b.post e).1 ≠ .delivered := by
            rw [ne_eq, Mailbox.post_eq_delivered_iff]
            omega
          simp [hgone] at hdue
      . simp only [heq, false_and, ↓reduceIte]
        refine ⟨b, ?_, .of_room b⟩
        rw [Mailroom.getElem?_post_of_ne heq, hb]

theorem delivers_bind (h : s.Consistent) (j : Nat) (ready : ClientReady)
    (hb : s.room.boxes[i]? = some b)
    : ∃ b', (s.perform (.bind j ready)).room.boxes[i]? = some b' ∧
        Delivers s (s.perform (.bind j ready)) i [] [] b b' := by
  unfold perform
  dsimp
  split
  . exact ⟨b, hb, .of_same id b⟩
  . next stream hstream =>
    split
    . exact ⟨b, hb, .of_same id b⟩
    . next bd s' hbind =>
      have hlive : s'.Live i → s.Live i := by
        rintro (⟨k, id, hh⟩ | ⟨stream', hi, hsink'⟩)
        . rw [holds_bind hbind] at hh
          rcases hh with hh | ⟨_, _, hsink⟩
          . exact Or.inl ⟨k, id, hh⟩
          . have := (h.sink j stream i hstream hsink).1
            exact Or.inr ⟨stream, this ▸ hstream, hsink⟩
        . rcases bind?_eq_ok hbind with ⟨_, _, _, _, _, _, _, _, rfl⟩
          refine Or.inr (sink_setStream hstream ?_ ⟨stream', hi, hsink'⟩)
          rfl
      rcases bind?_eq_ok hbind with ⟨_, _, _, _, _, _, _, _, rfl⟩
      exact ⟨b, hb, .of_same hlive b⟩

theorem delivers_openStream (h : s.Consistent) (hb : s.room.boxes[i]? = some b)
    : ∃ b', s.openStream.room.boxes[i]? = some b' ∧ Delivers s s.openStream i [] [] b b' := by
  have hlt := (List.getElem?_eq_some_iff.1 hb).1
  refine ⟨b, ?_, .of_same ?_ b⟩
  . unfold openStream Mailroom.openBox
    dsimp
    rw [List.getElem?_append_left hlt, hb]
  . rintro (hh | ⟨stream, hi, hsink⟩)
    . exact Or.inl hh
    . rw [h.length] at hlt
      rw [getElem?_streams_openStream, if_neg (by omega)] at hi
      exact Or.inr ⟨stream, hi, hsink⟩

theorem delivers_take (s : Server) (j n : Nat) (hb : s.room.boxes[i]? = some b)
    : ∃ b', (s.take j n).2.room.boxes[i]? = some b' ∧
        Delivers s (s.take j n).2 i (s.received i (.take j n)) [] b b' := by
  have hbox := Mailroom.getElem?_take s.room j n i
  unfold received
  dsimp
  split
  . next heq =>
    subst heq
    rw [if_pos rfl, hb] at hbox
    have htaken : (s.take j n).1 = b.pending.take n := by
      simp [take, Mailroom.take, hb, Mailbox.take]
    rw [htaken]
    refine ⟨_, hbox, ?_⟩
    constructor
    . exact id
    . exact id
    . exact id
    . simp [Mailbox.take]
    . intro _ _
      simp [Mailbox.take]
    . intro _
      simp [Mailbox.take]
    . exact fun hdue => absurd rfl hdue
    . exact fun hdue => absurd rfl hdue
  . next hne =>
    rw [if_neg hne, hb] at hbox
    exact ⟨b, hbox, .of_room b⟩

theorem delivers_deafen (s : Server) (j : Nat) (hb : s.room.boxes[i]? = some b)
    : ∃ b', (s.stopListening j).room.boxes[i]? = some b' ∧
        Delivers s (s.stopListening j) i [] [] b b' := by
  have hbox := Mailroom.getElem?_closeReader s.room j i
  split at hbox
  . rw [hb] at hbox
    refine ⟨_, hbox, ?_⟩
    constructor
    . exact id
    . simp [Mailbox.closeReader]
    . exact id
    . simp [Mailbox.closeReader]
    . intro _
      simp [Mailbox.closeReader]
    . intro _
      simp [Mailbox.closeReader]
    . exact fun hdue => absurd rfl hdue
    . exact fun hdue => absurd rfl hdue
  . rw [hb] at hbox
    exact ⟨b, hbox, .of_room b⟩

theorem delivers_perform (h : s.Consistent) (a : Act) (hb : s.room.boxes[i]? = some b)
    : ∃ b', (s.perform a).room.boxes[i]? = some b' ∧
        Delivers s (s.perform a) i (s.received i a) (s.answered i a ++ s.addressed i a) b b' := by
  have hsilent : (∀ k, a ≠ .start k) → (∀ k, a ≠ .stop k) → (∀ j e, a ≠ .handle j e) →
      s.addressed i a = [] := by
    intro hstart hstop hhandle
    apply addressed_eq_nil
    intro k id
    unfold addresses
    cases s.lobby.console? k <;> cases a <;> simp_all
  have hquiet : ∀ s', s'.room = s.room → (s'.Live i → s.Live i) →
      ∃ b', s'.room.boxes[i]? = some b' ∧ Delivers s s' i [] [] b b' := by
    intro s' hroom hlive
    exact ⟨b, by rw [hroom, hb], .of_same hlive b⟩
  cases a with
  | start k => exact delivers_start h k hb
  | stop k => exact delivers_stop h k hb
  | handle j e => exact delivers_handle h j e hb
  | reply j consoleId status =>
    rw [hsilent (by simp) (by simp) (by simp), List.append_nil]
    exact delivers_reply h j consoleId status hb
  | bind j ready =>
    rw [hsilent (by simp) (by simp) (by simp)]
    exact delivers_bind h j ready hb
  | close j =>
    rw [hsilent (by simp) (by simp) (by simp)]
    exact delivers_close h j hb
  | openStream =>
    rw [hsilent (by simp) (by simp) (by simp)]
    exact delivers_openStream h hb
  | take j n =>
    rw [hsilent (by simp) (by simp) (by simp)]
    exact delivers_take s j n hb
  | deafen j =>
    rw [hsilent (by simp) (by simp) (by simp)]
    exact delivers_deafen s j hb
  | create title romName romHash =>
    rw [hsilent (by simp) (by simp) (by simp)]
    apply hquiet (s.perform (.create title romName romHash)) rfl
    rintro (⟨k, id, hh⟩ | hsink)
    . exact Or.inl ⟨k, id, holds_create hh⟩
    . exact Or.inr hsink
  | plug k delay requested romHash =>
    rw [hsilent (by simp) (by simp) (by simp)]
    rcases perform_plug_frame s k delay requested romHash with ⟨hroom, hstreams⟩
    apply hquiet _ hroom
    rintro (⟨k, id, hh⟩ | ⟨stream, hi, hsink⟩)
    . exact Or.inl ⟨k, id, holds_plug hh⟩
    . exact Or.inr ⟨stream, hstreams ▸ hi, hsink⟩
  | prune =>
    rw [hsilent (by simp) (by simp) (by simp)]
    apply hquiet (s.perform .prune) rfl
    rintro (⟨k, id, hh⟩ | hsink)
    . exact Or.inl ⟨k, id, holds_prune hh⟩
    . exact Or.inr hsink
  | halt =>
    rw [hsilent (by simp) (by simp) (by simp)]
    exact hquiet (s.perform .halt) rfl fun hlive => hlive

end Acts

end Server
end PadRelay
