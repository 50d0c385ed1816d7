import PadRelay.Proofs.Server.StartFirst

/-!
This module contains the theory of streams around the start of a game. As long as nobody sends keys the
streams of a console are due nothing until it is started. The start event is the first one in their
mailboxes then, and it stays there until it is taken out.
-/

namespace PadRelay

/-- What a mailbox becomes from which nothing is taken and whose reader stays. -/
structure Mailbox.Keeps (b b' : Mailbox) : Prop where
  pending : b.pending <+: b'.pending
  gone : b.hasReader = false → b'.pending = b.pending
  reader : b'.hasReader = b.hasReader
  capacity : b'.capacity = b.capacity

namespace Mailbox

theorem Keeps.refl (b : Mailbox) : b.Keeps b :=
  ⟨List.prefix_refl _, fun _ => rfl, rfl, rfl⟩

theorem Keeps.closeSender {b b' : Mailbox} (h : b.Keeps b') : b.Keeps b'.closeSender :=
  ⟨h.pending, h.gone, h.reader, h.capacity⟩

theorem keeps_postAny (b : Mailbox) (posted : Option IncomingEvent)
    : b.Keeps (b.postAny posted).2 where
  pending := by
    rw [pending_postAny]
    split
    . exact List.prefix_append _ _
    . exact List.prefix_refl _
  gone hnone := pending_postAny_of_hasReader hnone posted
  reader := hasReader_postAny b posted
  capacity := capacity_postAny b posted

end Mailbox

namespace Server

section Due

variable {s : Server} {i k : Nat} {a : Act} {op : Operation} {e : IncomingEvent}

theorem reply_mem_acts {consoleId : Int64} {status : InvalidDataStatus}
    (ha : .reply i consoleId status ∈ s.acts op)
    : (∃ e, op = .receive i e) ∧ s.acts op = [.reply i consoleId status] := by
  unfold acts at ha ⊢
  cases op with
  | receive j e =>
    dsimp at ha ⊢
    repeat' split at ha
    all_goals simp_all
  | shutDown request =>
    dsimp at ha
    split at ha <;> simp at ha
  | _ =>
    dsimp at ha
    repeat' split at ha
    all_goals simp at ha

theorem started_performAll {c : Console} (hc : s.lobby.console? k = some c)
    (hstarted : c.status ≠ .created) (acts : List Act)
    : ∃ c', (s.performAll acts).lobby.console? k = some c' ∧ c'.status ≠ .created := by
  induction acts generalizing s c with
  | nil => exact ⟨c, hc, hstarted⟩
  | cons a acts ih =>
    rcases console?_perform_of_started hc hstarted a with ⟨c', hc', hstarted'⟩
    exact ih hc' hstarted'

/--
Until its console is started a stream is due nothing, as long as no keys arrive on a stream of that
console and no refusal is sent to a stream that belongs to nobody.
-/
theorem trace_due_eq_nil (h : s.Consistent)
    (hbound : ∀ b, (s.step op).boundTo i = some b → b.console = k)
    (hreply : (s.step op).boundTo i = none → ∀ e, op ≠ .receive i e)
    (hcreated : ∀ c, (s.step op).lobby.console? k = some c → c.status = .created)
    (hsilent : ∀ j e b, op = .receive j e → (s.step op).boundTo j = some b → b.console = k →
      e.keys = [])
    : trace (due i) s (s.acts op) = [] := by
  rw [List.eq_nil_iff_forall_not_mem]
  intro e he
  rcases mem_trace he with ⟨before, a, after, hacts, he⟩
  have hmem : a ∈ s.acts op := by
    rw [hacts]
    simp
  have hwaits : ∀ c, ((s.performAll before).perform a).lobby.console? k = some c →
      c.status = .created := by
    intro c hc
    by_cases hstarted : c.status = .created
    . exact hstarted
    . rcases started_performAll hc hstarted after with ⟨c', hc', hstarted'⟩
      rw [← step_of_acts hacts] at hc'
      exact absurd (hcreated c' hc') hstarted'
  rcases mem_due he with hanswered | ⟨b, hb, haddressing⟩
  . rcases mem_answered hanswered with ⟨_, _, consoleId, status, rfl⟩
    have hfree : (s.performAll before).boundTo i = none := by
      cases hb : (s.performAll before).boundTo i with
      | none => rfl
      | some b => simp [answered_of_bound (consistent_performAll h before) hb] at hanswered
    rcases reply_mem_acts hmem with ⟨⟨e', hop⟩, hsingle⟩
    -- The refusal is all that happens, and it binds nothing.
    have hnil : before = [] := by
      rw [hsingle] at hacts
      cases before with
      | nil => rfl
      | cons _ _ => simp at hacts
    rw [hnil, performAll_nil] at hfree
    refine hreply ?_ e' hop
    rw [step_eq_performAll, hsingle, performAll_cons, performAll_nil]
    rcases boundTo_perform_cases s (.reply i consoleId status) i with heq | ⟨_, _, _, _, heq, _⟩
    . rw [heq, hfree]
    . simp at heq
  . have hk := hbound b (boundTo_step_of_acts h hacts hb)
    subst hk
    cases haddressing with
    | start hc hwaiting hready _ =>
      rcases console?_start hc hwaiting hready with ⟨c', hc', hstarted⟩
      exact hstarted (hwaits c' hc')
    | @stop c hc _ =>
      have hc' : ((s.performAll before).perform (.stop b.console)).lobby.console? b.console
          = some (c.stop (s.performAll before).room).1 := by
        simp only [perform, hc]
        exact Lobby.console?_set_self hc _
      have := hwaits _ hc'
      simp [Console.stop] at this
    | handle hsender hconsole hkeys _ =>
      have hsender := boundTo_step_of_acts h hacts hsender
      exact hkeys (hsilent _ _ _ (handle_mem_acts hmem) hsender hconsole)

end Due

section Box

variable {s : Server} {i : Nat} {a : Act} {b : Mailbox}

theorem keeps_update {c : Console} (k : Nat)
    {ready : ClientId → Bool} {posted : ClientId → Option IncomingEvent}
    {fate : ClientId → Member.Fate} {r : Console × Mailroom}
    (hs : c.Serves (fun id => Member.undergo (ready id) (posted id) (fate id)) s.room r)
    (hb : s.room.boxes[i]? = some b)
    : ∃ b', (s.update k r).room.boxes[i]? = some b' ∧ b.Keeps b' := by
  by_cases hholder : ∃ id m, c.members.get? id = some m ∧ m.mailbox = some i
  . rcases hholder with ⟨id, m, hm, hi⟩
    refine ⟨_, (hs.box id m i hm hi).trans (Member.undergo_box hi hb _ _ _), ?_⟩
    split
    . exact Mailbox.keeps_postAny b _
    . exact (Mailbox.keeps_postAny b _).closeSender
  . refine ⟨b, ?_, .refl b⟩
    rw [← hb]
    apply hs.other
    intro id m hm hi
    exact hholder ⟨id, m, hm, hi⟩

theorem keeps_close (h : s.Consistent) (j : Nat) (hb : s.room.boxes[i]? = some b)
    : ∃ b', (s.closeStream j).room.boxes[i]? = some b' ∧ b.Keeps b' := by
  cases hstream : s.streams[j]? with
  | none =>
    simp only [closeStream, hstream]
    exact ⟨b, hb, .refl b⟩
  | some stream =>
    cases hbound : stream.binding with
    | some bd =>
      rcases h.bound j bd (boundTo_eq_some_iff.2 ⟨stream, hstream, hbound⟩) with ⟨c, _, hc, _⟩
      have hserves := Console.serves_streamClosed (h.separate hc) bd.clientId s.room
      rw [closeStream_eq hstream hbound hc]
      exact keeps_update bd.console hserves hb
    | none =>
      cases hsink : stream.sink with
      | none =>
        simp only [closeStream, hstream, hbound, hsink]
        exact ⟨b, hb, .refl b⟩
      | some box =>
        simp only [closeStream, hstream, hbound, hsink]
        rw [Mailroom.getElem?_closeSender]
        split
        . refine ⟨b.closeSender, ?_, (Mailbox.Keeps.refl b).closeSender⟩
          simp [setStream, hb]
        . exact ⟨b, hb, .refl b⟩

theorem keeps_reply (j : Nat) (consoleId : Int64) (status : InvalidDataStatus)
    (hb : s.room.boxes[i]? = some b)
    : ∃ b', (s.perform (.reply j consoleId status)).room.boxes[i]? = some b' ∧ b.Keeps b' := by
  unfold perform replyAnonymous
  dsimp
  split
  . exact ⟨b, hb, .refl b⟩
  . split
    . exact ⟨b, hb, .refl b⟩
    . next box _ =>
      dsimp
      by_cases heq : box = i
      . subst heq
        rw [Mailroom.getElem?_post_self, hb]
        exact ⟨_, rfl, Mailbox.keeps_postAny b (some _)⟩
      . rw [Mailroom.getElem?_post_of_ne heq]
        exact ⟨b, hb, .refl b⟩

/-- All that an act can do to a mailbox. -/
theorem box_perform_cases (h : s.Consistent) (a : Act) (hb : s.room.boxes[i]? = some b)
    : ∃ b', (s.perform a).room.boxes[i]? = some b' ∧
        (b.Keeps b' ∨ (∃ n, a = .take i n ∧ b' = (b.take n).2) ∨ a = .deafen i ∧ b' = b.closeReader) := by
  have hkeeps : ∀ {s' : Server}, (∃ b', s'.room.boxes[i]? = some b' ∧ b.Keeps b') →
      ∃ b', s'.room.boxes[i]? = some b' ∧
        (b.Keeps b' ∨ (∃ n, a = .take i n ∧ b' = (b.take n).2) ∨ a = .deafen i ∧ b' = b.closeReader) :=
    fun ⟨b', hb', hk⟩ => ⟨b', hb', Or.inl hk⟩
  have hsame : ∀ {s' : Server}, s'.room = s.room → ∃ b', s'.room.boxes[i]? = some b' ∧ b.Keeps b' :=
    fun heq => ⟨b, by rw [heq, hb], .refl b⟩
  cases a with
  | start k =>
    apply hkeeps
    cases hc : s.lobby.console? k with
    | none => exact hsame (by simp [perform, hc])
    | some c =>
      cases hr : c.start s.room with
      | error e => exact hsame (by simp only [perform, hc, hr])
      | ok r =>
        simp only [perform, hc, hr]
        rcases start_eq_ok hr with ⟨_, _, rfl⟩
        exact keeps_update k (Console.serves_broadcastStart (h.separate hc) s.room) hb
  | stop k =>
    apply hkeeps
    cases hc : s.lobby.console? k with
    | none => exact hsame (by simp [perform, hc])
    | some c =>
      simp only [perform, hc]
      exact keeps_update k (Console.serves_stop (h.separate hc) s.room) hb
  | handle j e =>
    apply hkeeps
    cases hbound : s.boundTo j with
    | none => exact hsame (by simp [perform, hbound])
    | some bd =>
      rcases h.bound j bd hbound with ⟨c, _, hc, _⟩
      simp only [perform, hbound, dispatch, hc]
      exact keeps_update bd.console (Console.serves_handle (h.separate hc) bd.clientId e s.room) hb
  | close j => exact hkeeps (keeps_close h j hb)
  | reply j consoleId status => exact hkeeps (keeps_reply j consoleId status hb)
  | bind j ready =>
    apply hkeeps
    apply hsame
    unfold perform
    dsimp
    split
    . rfl
    . split
      . rfl
      . next hbind =>
        rcases bind?_eq_ok hbind with ⟨_, _, _, _, _, _, _, _, rfl⟩
        rfl
  | openStream =>
    have hlt := (List.getElem?_eq_some_iff.1 hb).1
    refine hkeeps ⟨b, ?_, .refl b⟩
    unfold perform openStream Mailroom.openBox
    dsimp
    rw [List.getElem?_append_left hlt, hb]
  | plug k delay requested romHash =>
    exact hkeeps (hsame (perform_plug_frame s k delay requested romHash).1)
  | take j n =>
    have hbox := Mailroom.getElem?_take s.room j n i
    split at hbox
    . next heq =>
      subst heq
      rw [hb] at hbox
      exact ⟨_, hbox, Or.inr (Or.inl ⟨n, rfl, rfl⟩)⟩
    . exact hkeeps ⟨b, hbox.trans hb, .refl b⟩
  | deafen j =>
    have hbox := Mailroom.getElem?_closeReader s.room j i
    split at hbox
    . next heq =>
      subst heq
      rw [hb] at hbox
      exact ⟨_, hbox, Or.inr (Or.inr ⟨rfl, rfl⟩)⟩
    . exact hkeeps ⟨b, hbox.trans hb, .refl b⟩
  | create title romName romHash => exact hkeeps (hsame rfl)
  | prune => exact hkeeps (hsame rfl)
  | halt => exact hkeeps (hsame rfl)

/-- All mailboxes have room for the same number of events. -/
def Uniform (s : Server) : Prop :=
  ∀ (i : Nat) (b : Mailbox), s.room.boxes[i]? = some b → b.capacity = eventBuffer

theorem Uniform.perform (hu : s.Uniform) (h : s.Consistent) (a : Act) : (s.perform a).Uniform := by
  intro i b' hb'
  cases hb : s.room.boxes[i]? with
  | none => rw [box_perform_of_none h hb a hb']
  | some b =>
    rcases box_perform_cases h a hb with ⟨b'', hb'', hcases⟩
    rw [hb', Option.some.injEq] at hb''
    subst hb''
    rcases hcases with hkeeps | ⟨n, _, rfl⟩ | ⟨_, rfl⟩
    . exact hkeeps.capacity.trans (hu i b hb)
    . exact hu i b hb
    . exact hu i b hb

theorem uniform_run (testMode : Bool) (limit : Option Nat) (ops : List Operation)
    : ((initial testMode limit).run ops).Uniform := by
  have hinitial : (initial testMode limit).Uniform := by
    intro i b hb
    simp [initial] at hb
  exact (run_induction (P := fun s => s.Consistent ∧ s.Uniform)
    (fun _ a hs => ⟨consistent_perform hs.1 a, hs.2.perform hs.1 a⟩)
    ⟨consistent_initial testMode limit, hinitial⟩ ops).2

end Box

section Upcoming

variable {s : Server} {i : Nat} {a : Act} {op : Operation} {e : IncomingEvent}

/-- Event `e` is the next one in the mailbox of stream `i`, unless nobody reads it any more. -/
def Upcoming (s : Server) (i : Nat) (e : IncomingEvent) : Prop :=
  ∃ b, s.room.boxes[i]? = some b ∧
    ((∃ rest, b.pending = e :: rest) ∨ b.pending = [] ∧ b.hasReader = false)

theorem Upcoming.perform (hup : s.Upcoming i e) (h : s.Consistent) (htake : ∀ n, a ≠ .take i n)
    : (s.perform a).Upcoming i e := by
  rcases hup with ⟨b, hb, hcases⟩
  rcases box_perform_cases h a hb with ⟨b', hb', hkeeps | ⟨n, heq, _⟩ | ⟨_, rfl⟩⟩
  . refine ⟨b', hb', ?_⟩
    rcases hcases with ⟨rest, heq⟩ | ⟨hnil, hgone⟩
    . rcases hkeeps.pending with ⟨more, hmore⟩
      rw [heq] at hmore
      exact Or.inl ⟨rest ++ more, hmore.symm⟩
    . exact Or.inr ⟨(hkeeps.gone hgone).trans hnil, hkeeps.reader.trans hgone⟩
  . exact absurd heq (htake n)
  . exact ⟨_, hb', Or.inr ⟨rfl, rfl⟩⟩

theorem take_mem_acts {n : Nat} (ha : .take i n ∈ s.acts op) : op = .take i n := by
  unfold acts at ha
  cases op with
  | take j n' => simpa [eq_comm] using ha
  | shutDown request =>
    dsimp at ha
    split at ha <;> simp at ha
  | _ =>
    dsimp at ha
    repeat' split at ha
    all_goals simp at ha

theorem Upcoming.step (hup : s.Upcoming i e) (h : s.Consistent) (htake : ∀ n, op ≠ .take i n)
    : (s.step op).Upcoming i e := by
  have hacts : ∀ a ∈ s.acts op, ∀ n, a ≠ .take i n := by
    rintro _ ha n rfl
    exact htake n (take_mem_acts ha)
  rw [step_eq_performAll]
  generalize s.acts op = acts at hacts
  induction acts generalizing s with
  | nil => exact hup
  | cons a acts ih =>
    have ha := hacts a List.mem_cons_self
    exact ih (hup.perform h ha) (consistent_perform h a)
      fun a ha => hacts a (List.mem_cons_of_mem _ ha)

theorem Upcoming.take (hup : s.Upcoming i e) (n : Nat)
    : (∃ rest, (s.take i n).1 = e :: rest) ∨
        (s.take i n).1 = [] ∧ (s.take i n).2.Upcoming i e := by
  rcases hup with ⟨b, hb, hcases⟩
  have hbox := Mailroom.getElem?_take s.room i n i
  rw [if_pos rfl, hb] at hbox
  have htaken : (s.take i n).1 = b.pending.take n := by
    simp [Server.take, Mailroom.take, hb, Mailbox.take]
  rw [htaken]
  rcases hcases with ⟨rest, heq⟩ | ⟨hnil, hgone⟩
  . cases n with
    | zero => exact Or.inr ⟨rfl, _, hbox, Or.inl ⟨rest, heq⟩⟩
    | succ n => exact Or.inl ⟨rest.take n, by rw [heq, List.take_succ_cons]⟩
  . right
    refine ⟨by rw [hnil, List.take_nil], _, hbox, Or.inr ⟨?_, hgone⟩⟩
    simp [Mailbox.take, hnil]

/-- Who still listens finds the event at the next look into its mailbox. -/
theorem Upcoming.take_of_reader (hup : s.Upcoming i e)
    (hreader : ∀ b, s.room.boxes[i]? = some b → b.hasReader = true) {n : Nat} (hn : 0 < n)
    : ∃ rest, (s.take i n).1 = e :: rest := by
  rcases hup with ⟨b, hb, ⟨rest, heq⟩ | ⟨_, hgone⟩⟩
  . refine ⟨rest.take (n - 1), ?_⟩
    have htaken : (s.take i n).1 = b.pending.take n := by
      simp [Server.take, Mailroom.take, hb, Mailbox.take]
    rw [htaken, heq, ← List.take_succ_cons, Nat.sub_add_cancel hn]
  . rw [hreader b hb] at hgone
    simp at hgone

theorem upcoming_start {k : Nat} {id : ClientId} {c : Console} {b : Mailbox} (h : s.Consistent)
    (hc : s.lobby.console? k = some c) (hcreated : c.status = .created) (hready : c.allReady = true)
    (hbound : s.boundTo i = some ⟨k, id⟩) (hlive : s.Live i) (hb : s.room.boxes[i]? = some b)
    (hnil : b.pending = []) (hcapacity : 0 < b.capacity)
    : (s.perform (.start k)).Upcoming i c.startEvent := by
  have hdue := due_start hbound hc hcreated hready
  rcases delivers_perform h (.start k) hb with ⟨b', hb', hd⟩
  have heq : s.answered i (.start k) ++ s.addressed i (.start k) = s.due i (.start k) := rfl
  rw [heq, hdue] at hd
  refine ⟨b', hb', ?_⟩
  by_cases hreader : b.hasReader = true
  . left
    have hfits := hd.fits (by simp) hlive hreader (by simpa [hnil] using hcapacity)
    exact ⟨[], by rw [hfits, hnil, List.nil_append]⟩
  . right
    have hrest := (hd.rest fun hl => hreader hl.2).1
    rw [hnil, List.prefix_nil, List.append_eq_nil_iff] at hrest
    refine ⟨hrest.2, ?_⟩
    rw [← Bool.not_eq_true]
    exact fun hread => hreader (hd.reader hread)

end Upcoming

end Server
end PadRelay
