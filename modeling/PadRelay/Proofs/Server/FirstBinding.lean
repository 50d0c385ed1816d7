import PadRelay.Proofs.Server.Lagging
import PadRelay.Proofs.Server.Streams

/-!
This module contains the proof that no two streams which have not ended belong to the same client, and
that the end of a stream is of no concern to the others, unless the mailbox of the client was taken from
it before its stream ended. In the latter case the client can be bound again, and the end of its first
stream ends the second one as well.
-/

namespace PadRelay
namespace Server

/-- Whether stream `i` was opened and has not ended. -/
def isOpen (s : Server) (i : Nat) : Bool :=
  (s.streams[i]?).any (·.isOpen)

/-- Whether an act takes its mailbox from a client for another reason than that its stream ends. -/
def cutsOff (s : Server) (b : Binding) (a : Act) : Bool :=
  (s.mailbox? b).isSome &&
    match a with
    | .stop k => k = b.console
    | .plug k _ _ _ => k = b.console && b.clientId = ⟨s.lobby.clientIds.next⟩
    | _ => s.lags b a

/-- Whether an act ends no stream that has ended before. -/
def endsOpen (s : Server) : Act → Bool
  | .close i => s.isOpen i
  | _ => true

/-- Every stream of a client that has not ended is the one whose mailbox the client holds. -/
def Attached (s : Server) (b : Binding) : Prop :=
  ∀ i, s.boundTo i = some b → s.isOpen i = true → s.mailbox? b = some i

/-- Stream `j` goes on as before. -/
structure Spares (s s' : Server) (j : Nat) : Prop where
  box : s'.room.boxes[j]? = s.room.boxes[j]?
  live : s.Live j → s'.Live j

theorem isOpen_eq_true_iff {s : Server} {i : Nat}
    : s.isOpen i = true ↔ ∃ stream, s.streams[i]? = some stream ∧ stream.isOpen = true := by
  unfold isOpen
  rw [Option.any_eq_true]

theorem endsOpen_of_ne {a : Act} (h : ∀ i, a ≠ .close i) (s : Server) : s.endsOpen a = true := by
  cases a with
  | close i => exact absurd rfl (h i)
  | _ => rfl

theorem acts_endStream (s : Server) (i : Nat)
    : s.acts (.endStream i) = [] ∨
        (s.isOpen i = true ∧
          (s.acts (.endStream i) = [.close i] ∨ s.acts (.endStream i) = [.close i, .prune])) := by
  unfold acts
  dsimp
  split
  . exact Or.inl rfl
  . next stream hstream =>
    split
    . exact Or.inl rfl
    . next hopen =>
      right
      constructor
      . rw [isOpen_eq_true_iff]
        exact ⟨stream, hstream, by simpa using hopen⟩
      . repeat' split
        all_goals simp

theorem every_endsOpen_acts (s : Server) (op : Operation)
    : every endsOpen s (s.acts op) = true := by
  cases op with
  | endStream i =>
    rcases acts_endStream s i with hnil | ⟨hopen, hclose | hprune⟩
    . rw [hnil]
      rfl
    . rw [hclose]
      simp [every, endsOpen, hopen]
    . rw [hprune]
      simp [every, endsOpen, hopen]
  | _ =>
    apply every_of_forall
    intro a ha
    apply endsOpen_of_ne
    intro i heq
    rw [heq] at ha
    unfold acts at ha
    dsimp at ha
    repeat' split at ha
    all_goals simp at ha

section Attached

variable {s : Server} {b : Binding} {a : Act}

theorem isOpen_perform {i : Nat} (hb : s.boundTo i = some b)
    (hopen : (s.perform a).isOpen i = true) : s.isOpen i = true ∧ a ≠ .close i := by
  rw [isOpen_eq_true_iff] at hopen ⊢
  rcases hopen with ⟨stream, hstream, hopen⟩
  cases a with
  | openStream =>
    have heq := getElem?_streams_openStream s i
    replace hstream : s.openStream.streams[i]? = some stream := hstream
    rw [hstream] at heq
    split at heq
    . next hnew =>
      simp [boundTo, hnew] at hb
    . exact ⟨⟨stream, heq.symm, hopen⟩, by simp⟩
  | bind j ready =>
    refine ⟨?_, by simp⟩
    unfold perform at hstream
    dsimp at hstream
    split at hstream
    . exact ⟨stream, hstream, hopen⟩
    . next x hj =>
      split at hstream
      . exact ⟨stream, hstream, hopen⟩
      . next hbind =>
        rcases bind?_eq_ok hbind with ⟨_, _, _, _, _, _, _, _, rfl⟩
        dsimp at hstream
        rw [getElem?_setStream hj] at hstream
        split at hstream
        . next heq =>
          rw [Option.some.injEq] at hstream
          rw [← hstream] at hopen
          exact ⟨x, heq ▸ hj, hopen⟩
        . exact ⟨stream, hstream, hopen⟩
  | close j =>
    replace hstream : (s.closeStream j).streams[i]? = some stream := hstream
    cases hj : s.streams[j]? with
    | none =>
      simp only [closeStream, hj] at hstream
      refine ⟨⟨stream, hstream, hopen⟩, ?_⟩
      intro heq
      rw [Act.close.injEq] at heq
      rw [← heq, hj] at hstream
      simp at hstream
    | some x =>
      rw [streams_closeStream hj, getElem?_setStream hj] at hstream
      split at hstream
      . rw [Option.some.injEq] at hstream
        rw [← hstream] at hopen
        simp at hopen
      . next hne => exact ⟨⟨stream, hstream, hopen⟩, by simpa using hne⟩
  | _ =>
    rw [streams_perform] at hstream
    . exact ⟨⟨stream, hstream, hopen⟩, by simp⟩
    all_goals simp

theorem lags_of_cutsOff (h : s.cutsOff b a = false) (hbox : (s.mailbox? b).isSome = true)
    : s.lags b a = false ∧ a ≠ .stop b.console ∧
        ∀ delay requested romHash, a = .plug b.console delay requested romHash →
          b.clientId ≠ ⟨s.lobby.clientIds.next⟩ := by
  unfold cutsOff at h
  rw [hbox, Bool.true_and] at h
  -- Who is addressed nothing does not lag.
  have hnone : s.addresses b.console b.clientId a = none → s.lags b a = false := by
    intro hnone
    simp [lags, hnone]
  cases a with
  | stop k =>
    dsimp at h
    rw [decide_eq_false_iff_not] at h
    refine ⟨?_, by simpa using h, by simp⟩
    apply hnone
    rw [addresses_stop, if_neg h]
  | plug k delay requested romHash =>
    dsimp at h
    refine ⟨?_, by simp, ?_⟩
    . apply hnone
      unfold addresses
      cases s.lobby.console? b.console <;> rfl
    . intro delay' requested' romHash' heq
      rw [Act.plug.injEq] at heq
      simpa [heq.1] using h
  | _ => exact ⟨h, by simp, by simp⟩

theorem Attached.perform (h : s.Consistent) (ha : s.Attached b) (hcuts : s.cutsOff b a = false)
    (hends : s.endsOpen a = true) : (s.perform a).Attached b := by
  intro i hb hopen
  rcases boundTo_perform_cases s a i with heq | ⟨ready, stream, b', s', rfl, hstream, hbind, hb'⟩
  . rw [heq] at hb
    rcases isOpen_perform hb hopen with ⟨hopen, hclose⟩
    have hbox := ha i hb hopen
    rcases mailbox?_eq_some_iff.1 hbox with ⟨c, m, hc, hm, hi⟩
    rcases lags_of_cutsOff hcuts (by simp [hbox]) with ⟨hlags, hstop, hplug⟩
    rcases treats_perform h hc hm a with ⟨c', m', hc', hm', ht⟩
    rw [mailbox?_eq_some_iff]
    refine ⟨c', m', hc', hm', (ht.of_room hc hm hlags hstop ?_).2 hplug i hi⟩
    -- Only one stream of the client has not ended, and that is not the one that ends now.
    intro j heq hj
    rw [heq] at hends hclose
    have := ha j hj hends
    rw [hbox, Option.some.injEq] at this
    exact hclose (by rw [this])
  . have hperform : s.perform (.bind i ready) = s' := by
      simp only [Server.perform, hstream, hbind]
    rw [hb', Option.some.injEq] at hb
    rcases bind?_eq_ok hbind with ⟨_, _, box, _, _, _, _, hsink, _⟩
    rw [mailbox?_eq_some_iff, hperform, holds_bind hbind, ← hb]
    right
    refine ⟨rfl, rfl, ?_⟩
    rw [hsink, (h.sink i stream box hstream hsink).1]

theorem Attached.performAll (h : s.Consistent) (ha : s.Attached b) {acts : List Act}
    (hcuts : every (fun s a => !s.cutsOff b a) s acts = true)
    (hends : every endsOpen s acts = true) : (s.performAll acts).Attached b := by
  induction acts generalizing s with
  | nil => exact ha
  | cons a acts ih =>
    simp only [every, Bool.and_eq_true, Bool.not_eq_true'] at hcuts hends
    apply ih (consistent_perform h a) _ hcuts.2 hends.2
    exact ha.perform h hcuts.1 hends.1

end Attached

section Spares

variable {s : Server} {i j : Nat}

theorem Spares.refl (s : Server) (j : Nat) : s.Spares s j :=
  ⟨rfl, id⟩

theorem spares_streamClosed {b : Binding} {c : Console} (h : s.Consistent)
    (hc : s.lobby.console? b.console = some c) (hj : s.mailbox? b ≠ some j)
    : s.Spares (s.update b.console (c.streamClosed b.clientId s.room)) j := by
  have hs := Console.serves_streamClosed (h.separate hc) b.clientId s.room
  have hne : ∀ {id m}, c.members.get? id = some m → m.mailbox = some j → id ≠ b.clientId := by
    intro id m hm hbox heq
    apply hj
    rw [mailbox?_eq_some_iff]
    exact ⟨c, m, hc, heq ▸ hm, hbox⟩
  have hother : ∀ {id}, id ≠ b.clientId → ∀ m,
      Console.closing b.clientId id m s.room = (m, s.room) := by
    intro id hid m
    simp [Console.closing, Member.undergo, hid]
  constructor
  . by_cases hheld : ∃ id m, c.members.get? id = some m ∧ m.mailbox = some j
    . rcases hheld with ⟨id, m, hm, hbox⟩
      apply (hs.box id m j hm hbox).trans
      rw [hother (hne hm hbox)]
    . apply hs.other
      intro id m hm hbox
      exact hheld ⟨id, m, hm, hbox⟩
  . rintro (⟨k, id, c', m, hc', hm, hbox⟩ | hsink)
    . left
      by_cases heq : b.console = k
      . rw [← heq, hc, Option.some.injEq] at hc'
        subst hc' heq
        refine ⟨b.console, id, _, m, Lobby.console?_set_self hc _, ?_, hbox⟩
        rw [hs.member, hm, Option.map_some, hother (hne hm hbox)]
      . refine ⟨k, id, c', m, ?_, hm, hbox⟩
        exact (Lobby.console?_set_of_ne heq _ _).trans hc'
    . exact Or.inr hsink

theorem live_setStream_of_ne {stream : EventStream} (hstream : s.streams[i]? = some stream)
    (hne : j ≠ i) (stream' : EventStream) (hlive : s.Live j) : (s.setStream i stream').Live j := by
  rcases hlive with hh | ⟨x, hx, hsink⟩
  . exact Or.inl hh
  . right
    refine ⟨x, ?_, hsink⟩
    rw [getElem?_setStream hstream, if_neg (fun heq => hne heq.symm), hx]

theorem spares_closeStream (h : s.Consistent) (hne : j ≠ i)
    (hj : ∀ b, s.boundTo i = some b → s.mailbox? b ≠ some j) : s.Spares (s.closeStream i) j := by
  cases hstream : s.streams[i]? with
  | none =>
    simp only [closeStream, hstream]
    exact .refl s j
  | some stream =>
    cases hb : stream.binding with
    | some b =>
      have hbound : s.boundTo i = some b := boundTo_eq_some_iff.2 ⟨stream, hstream, hb⟩
      rcases h.bound i b hbound with ⟨c, _, hc, _⟩
      have hs := spares_streamClosed h hc (hj b hbound)
      rw [closeStream_eq hstream hb hc]
      refine ⟨hs.box, ?_⟩
      intro hlive
      apply live_setStream_of_ne (s := s.update b.console _) hstream hne
      exact hs.live hlive
    | none =>
      have hlive := live_setStream_of_ne hstream hne
        { stream with sink := none, isOpen := false, partialFrame := [] }
      rw [hb] at hlive
      cases hsink : stream.sink with
      | none =>
        simp only [closeStream, hstream, hb, hsink]
        exact ⟨rfl, hlive⟩
      | some box =>
        -- The mailbox of an anonymous stream is its own.
        have hbox := (h.sink i stream box hstream hsink).1
        simp only [closeStream, hstream, hb, hsink]
        refine ⟨?_, hlive⟩
        rw [Mailroom.getElem?_closeSender, if_neg]
        . rfl
        . omega

theorem spares_endStream (h : s.Consistent) (hne : j ≠ i)
    (hj : ∀ b, s.boundTo i = some b → s.isOpen i = true → s.mailbox? b ≠ some j)
    : s.Spares (s.endStream i) j := by
  rw [endStream_eq_performAll]
  rcases acts_endStream s i with hnil | ⟨hopen, hacts⟩
  . rw [hnil]
    exact .refl s j
  . have hclose := spares_closeStream h hne fun b hb => hj b hb hopen
    rcases hacts with hacts | hacts
    . rw [hacts]
      exact hclose
    . rw [hacts]
      refine ⟨hclose.box, ?_⟩
      intro hlive
      rcases hclose.live hlive with ⟨k, id, c, m, hc, hm, hbox⟩ | hsink
      . refine Or.inl ⟨k, id, c, m, ?_, hm, hbox⟩
        exact (Lobby.console?_removeFinished _ k).trans hc
      . exact Or.inr hsink

end Spares

/--
A client that keeps its mailbox until its stream ends has at most one stream that has not ended. The end
of a stream of this client or of an anonymous stream is then of no concern to any other stream.
-/
theorem first_binding_wins (testMode : Bool) (limit : Option Nat) (ops : List Operation)
    (b : Binding)
    (h : every (fun s a => !s.cutsOff b a) (initial testMode limit)
      ((initial testMode limit).history ops) = true)
    : let s := (initial testMode limit).run ops
      (∀ i j, s.boundTo i = some b → s.boundTo j = some b → s.isOpen i = true →
        s.isOpen j = true → i = j) ∧
        ∀ i j, s.boundTo i = some b ∨ s.boundTo i = none → j ≠ i → s.Spares (s.endStream i) j := by
  intro s
  have hs : s.Consistent := consistent_run testMode limit ops
  have hends := every_history every_endsOpen_acts (initial testMode limit) ops
  have hattached : s.Attached b := by
    have hinitial : (initial testMode limit).Attached b := by
      intro i hb
      simp [initial, boundTo] at hb
    have hrun := hinitial.performAll (consistent_initial testMode limit) h hends
    rwa [← run_eq_performAll] at hrun
  constructor
  . intro i j hi hj hopen hopen'
    have heq := hattached i hi hopen
    rwa [hattached j hj hopen', Option.some.injEq, eq_comm] at heq
  . intro i j hb hne
    apply spares_endStream hs hne
    intro b' hb' hopen hbox
    rcases hb with hb | hb
    . rw [hb, Option.some.injEq] at hb'
      rw [← hb', hattached i hb hopen, Option.some.injEq] at hbox
      exact hne hbox.symm
    . rw [hb] at hb'
      simp at hb'

/-- Two streams that name the same client. -/
def rivals : List Operation :=
  [.makeConsole {},
    .plugController { consoleId := 1, port1 := 1 },
    .openStream,
    .openStream,
    .receive 0 { ready := some { consoleId := 1, clientId := 1 } },
    .receive 1 { ready := some { consoleId := 1, clientId := 1 } }]

theorem first_binding_wins_rivals
    : let s := (initial false none).run rivals
      s.boundTo 0 = some ⟨0, ⟨1⟩⟩ ∧ s.boundTo 1 = none ∧ s.Spares (s.endStream 1) 0 := by
  have hevery : every (fun s a => !s.cutsOff ⟨0, ⟨1⟩⟩ a) (initial false none)
      ((initial false none).history rivals) = true := by decide +kernel
  have hbound : ((initial false none).run rivals).boundTo 1 = none := by decide +kernel
  refine ⟨by decide +kernel, hbound, ?_⟩
  exact (first_binding_wins false none rivals ⟨0, ⟨1⟩⟩ hevery).2 1 0 (Or.inr hbound) (by decide)

/-- A client is bound again after its console was stopped. -/
def rebound : List Operation :=
  [.makeConsole {},
    .plugController { consoleId := 1, port1 := 1 },
    .openStream,
    .openStream,
    .receive 0 { ready := some { consoleId := 1, clientId := 1 } },
    .shutDown {},
    .receive 1 { ready := some { consoleId := 1, clientId := 1 } }]

/-- Two streams that have not ended belong to one client, and the end of the first ends the second. -/
theorem not_first_binding_wins
    : let s := (initial true none).run rebound
      s.boundTo 0 = some ⟨0, ⟨1⟩⟩ ∧ s.boundTo 1 = some ⟨0, ⟨1⟩⟩ ∧ s.isOpen 0 = true ∧
        s.isOpen 1 = true ∧ (s.room.boxes[1]?).map (·.hasSender) = some true ∧
        ((s.endStream 0).room.boxes[1]?).map (·.hasSender) = some false := by
  decide +kernel

end Server
end PadRelay
