import PadRelay.Proofs.Server.LifeCycle

/-!
This module contains the proof that consoles are isolated from each other. What is asked of one console,
and what arrives on a stream that names it or belongs to one of its clients, leaves all other consoles,
their clients and the streams of these alone, whatever numbers the request or the event carries.
-/

namespace PadRelay
namespace Server

/-- Whether an operation is directed at a console, or comes on a stream that may belong to one. -/
def Operation.isDirected : Operation → Bool
  | .plugController _ => true
  | .startGame _ => true
  | .receive _ _ => true
  | .endStream _ => true
  | _ => false

/-- Whether an act may be part of an operation that is directed at a console. -/
def Act.isDirected : Act → Bool
  | .plug _ _ _ _ => true
  | .start _ => true
  | .reply _ _ _ => true
  | .bind _ _ => true
  | .handle _ _ => true
  | .close _ => true
  | .prune => true
  | _ => false

/-- The position of the console that an operation names or whose stream it comes on. -/
def concerned (s : Server) : Operation → Option Nat
  | .plugController request => s.lobby.find? ⟨request.consoleId⟩
  | .startGame request => s.lobby.find? ⟨request.consoleId⟩
  | .receive i e =>
    match s.boundTo i with
    | some b => some b.console
    | none => e.ready.bind fun ready => s.lobby.find? ⟨ready.consoleId⟩
  | .endStream i => (s.boundTo i).map (·.console)
  | _ => none

/-- The position of the console that an act is directed at. -/
def target (s : Server) : Act → Option Nat
  | .plug k _ _ _ => some k
  | .start k => some k
  | .stop k => some k
  | .bind _ ready => s.lobby.find? ⟨ready.consoleId⟩
  | .handle i _ => (s.boundTo i).map (·.console)
  | .close i => (s.boundTo i).map (·.console)
  | _ => none

/--
The console at position `k` is as it was with all of its clients. No stream has come to belong to one of
them, and the streams that belong to them are as they were with everything that is left for them.
-/
structure Isolated (s s' : Server) (k : Nat) : Prop where
  console : s'.lobby.console? k = s.lobby.console? k
  bound : ∀ i id, s'.boundTo i = some ⟨k, id⟩ ↔ s.boundTo i = some ⟨k, id⟩
  stream : ∀ i id, s.boundTo i = some ⟨k, id⟩ → s'.streams[i]? = s.streams[i]?
  box : ∀ i id, s.boundTo i = some ⟨k, id⟩ → s'.room.boxes[i]? = s.room.boxes[i]?

section Isolated

variable {s s' s'' : Server} {k : Nat}

theorem Isolated.refl (s : Server) (k : Nat) : s.Isolated s k :=
  ⟨rfl, fun _ _ => Iff.rfl, fun _ _ _ => rfl, fun _ _ _ => rfl⟩

theorem Isolated.trans (h : s.Isolated s' k) (h' : s'.Isolated s'' k) : s.Isolated s'' k where
  console := h'.console.trans h.console
  bound i id := (h'.bound i id).trans (h.bound i id)
  stream i id hb := (h'.stream i id ((h.bound i id).2 hb)).trans (h.stream i id hb)
  box i id hb := (h'.box i id ((h.bound i id).2 hb)).trans (h.box i id hb)

end Isolated

section Perform

variable {s : Server} {k : Nat} {c : Console} {i : Nat} {id : ClientId} {a : Act}

theorem Changes.target {c' : Console} (hchanges : s.Changes k c a c') : s.target a = some k := by
  cases hchanges with
  | bind hlookup => exact Lobby.find?_of_lookup? hlookup
  | handle hb =>
    unfold Server.target
    dsimp
    rw [hb]
    rfl
  | close hb =>
    unfold Server.target
    dsimp
    rw [hb]
    rfl
  | _ => rfl

theorem console?_perform_of_target (hc : s.lobby.console? k = some c)
    (htarget : s.target a ≠ some k) : (s.perform a).lobby.console? k = some c := by
  rcases console?_perform_of_some hc a with ⟨c', hc', rfl | hchanges⟩
  . exact hc'
  . exact absurd hchanges.target htarget

/-- The mailbox of an anonymous stream belongs to nobody else. -/
theorem Consistent.boundTo_of_sink (h : s.Consistent) {stream : EventStream} {box : Nat}
    (hstream : s.streams[i]? = some stream) (hsink : stream.sink = some box)
    : box = i ∧ s.boundTo i = none := by
  rcases h.sink i stream box hstream hsink with ⟨rfl, hnone, _⟩
  refine ⟨rfl, ?_⟩
  unfold boundTo
  rw [hstream, Option.bind_some, hnone]

theorem boundTo_perform_iff_of_target (h : s.Consistent) (htarget : s.target a ≠ some k)
    : (s.perform a).boundTo i = some ⟨k, id⟩ ↔ s.boundTo i = some ⟨k, id⟩ := by
  refine ⟨?_, fun hb => boundTo_perform h hb a⟩
  intro hb
  rcases boundTo_perform_cases s a i with heq | ⟨ready, stream, b, s', rfl, _, hbind, hb'⟩
  . rw [← heq, hb]
  . rw [hb, Option.some.injEq] at hb'
    subst hb'
    rcases bind?_eq_ok hbind with ⟨_, _, _, hlookup, _⟩
    exact absurd (Lobby.find?_of_lookup? hlookup) htarget

theorem stream_perform_of_target (h : s.Consistent) (hb : s.boundTo i = some ⟨k, id⟩)
    (ha : a.isDirected = true) (htarget : s.target a ≠ some k)
    : (s.perform a).streams[i]? = s.streams[i]? := by
  cases a with
  | bind j ready =>
    unfold perform
    dsimp
    split
    . rfl
    . next stream hstream =>
      split
      . rfl
      . next hbind =>
        rcases bind?_eq_ok hbind with ⟨_, _, _, _, _, _, _, hsink, rfl⟩
        have hne : j ≠ i := by
          rintro rfl
          rw [(h.boundTo_of_sink hstream hsink).2] at hb
          simp at hb
        apply (getElem?_setStream hstream _ i).trans
        rw [if_neg hne]
  | close j =>
    unfold perform
    dsimp
    have hne : j ≠ i := by
      rintro rfl
      apply htarget
      unfold target
      dsimp
      rw [hb]
      rfl
    cases hstream : s.streams[j]? with
    | none => simp only [closeStream, hstream]
    | some stream => rw [streams_closeStream hstream, getElem?_setStream hstream, if_neg hne]
  | openStream => simp [Act.isDirected] at ha
  | _ => rw [streams_perform] <;> simp

/-- Serving one console touches no mailbox of another one. -/
theorem box_of_serves {f : ClientId → Member → Mailroom → Member × Mailroom} {j : Nat}
    {r : Console × Mailroom} (h : s.Consistent) (hc : s.lobby.console? j = some c)
    (hs : c.Serves f s.room r) (hne : j ≠ k) (hb : s.boundTo i = some ⟨k, id⟩)
    : r.2.boxes[i]? = s.room.boxes[i]? := by
  apply hs.other
  intro id' m hm hi
  have hb' := h.boundTo_of_holds ⟨c, m, hc, hm, hi⟩
  rw [hb, Option.some.injEq, Binding.mk.injEq] at hb'
  exact hne hb'.1.symm

theorem box_perform_of_target (h : s.Consistent) (hb : s.boundTo i = some ⟨k, id⟩)
    (ha : a.isDirected = true) (htarget : s.target a ≠ some k)
    : (s.perform a).room.boxes[i]? = s.room.boxes[i]? := by
  have hother : ∀ {j : Nat} {stream : EventStream} {box : Nat}, s.streams[j]? = some stream →
      stream.sink = some box → box ≠ i := by
    rintro j stream box hstream hsink rfl
    rcases h.boundTo_of_sink hstream hsink with ⟨rfl, hnone⟩
    rw [hnone] at hb
    simp at hb
  have hne : ∀ {j : Nat} {b : Binding}, s.boundTo j = some b →
      (s.boundTo j).map (·.console) ≠ some k → b.console ≠ k := by
    rintro j b hj hne rfl
    rw [hj] at hne
    exact hne rfl
  cases a with
  | plug j delay requested romHash =>
    rw [(perform_plug_frame s j delay requested romHash).1]
  | start j =>
    have hjk : j ≠ k := fun heq => htarget (congrArg some heq)
    unfold perform
    dsimp
    split
    . rfl
    . next c hc =>
      split
      . rfl
      . next r hr =>
        rcases start_eq_ok hr with ⟨_, _, rfl⟩
        exact box_of_serves h hc (Console.serves_broadcastStart (h.separate hc) s.room) hjk hb
  | reply j consoleId status =>
    unfold perform replyAnonymous
    dsimp
    split
    . rfl
    . next stream hstream =>
      split
      . rfl
      . next hsink => exact Mailroom.getElem?_post_of_ne (hother hstream hsink) _
  | bind j ready =>
    unfold perform
    dsimp
    split
    . rfl
    . split
      . rfl
      . next hbind =>
        rcases bind?_eq_ok hbind with ⟨_, _, _, _, _, _, _, _, rfl⟩
        rfl
  | handle j e =>
    unfold perform
    dsimp
    split
    . rfl
    . next b hj =>
      unfold dispatch
      split
      . rfl
      . next c hc =>
        have hserves := Console.serves_handle (h.separate hc) b.clientId e s.room
        exact box_of_serves h hc hserves (hne hj htarget) hb
  | close j =>
    unfold perform closeStream
    dsimp
    split
    . rfl
    . next stream hstream =>
      split
      . next b hbinding =>
        split
        . rfl
        . next c hc =>
          have hj : s.boundTo j = some b := boundTo_eq_some_iff.2 ⟨stream, hstream, hbinding⟩
          have hserves := Console.serves_streamClosed (h.separate hc) b.clientId s.room
          exact box_of_serves h hc hserves (hne hj htarget) hb
      . split
        . rfl
        . next hsink =>
          apply (Mailroom.getElem?_closeSender _ _ i).trans
          rw [if_neg (hother hstream hsink)]
          rfl
  | prune => rfl
  | _ => simp [Act.isDirected] at ha

theorem isolated_perform (h : s.Consistent) (hc : s.lobby.console? k = some c)
    (ha : a.isDirected = true) (htarget : s.target a ≠ some k) : s.Isolated (s.perform a) k where
  console := by rw [console?_perform_of_target hc htarget, hc]
  bound _ _ := boundTo_perform_iff_of_target h htarget
  stream _ _ hb := stream_perform_of_target h hb ha htarget
  box _ _ hb := box_perform_of_target h hb ha htarget

theorem isolated_performAll (h : s.Consistent) (hc : s.lobby.console? k = some c) {acts : List Act}
    (hacts : ∀ a ∈ acts, a.isDirected = true)
    (htarget : every (fun s a => s.target a ≠ some k) s acts = true)
    : s.Isolated (s.performAll acts) k := by
  induction acts generalizing s with
  | nil => exact .refl s k
  | cons a acts ih =>
    simp only [every, Bool.and_eq_true, decide_eq_true_eq] at htarget
    have hhead := isolated_perform h hc (hacts a List.mem_cons_self) htarget.1
    have htail := ih (consistent_perform h a) (hhead.console.trans hc)
      (fun a ha => hacts a (List.mem_cons_of_mem _ ha)) htarget.2
    exact hhead.trans htail

/-- A console only leaves the list when it is over. -/
theorem isListed_perform_cases (ha : a.isDirected = true) (k : Nat)
    : (s.perform a).lobby.isListed k = s.lobby.isListed k ∨
        (s.perform a).lobby.isListed k = false ∧ (s.perform a).Progressed k .done := by
  cases a with
  | prune =>
    change s.lobby.removeFinished.isListed k = _ ∨ s.lobby.removeFinished.isListed k = false ∧ _
    cases hafter : s.lobby.removeFinished.isListed k with
    | true => exact Or.inl (Lobby.isListed_removeFinished_iff.1 hafter).1.symm
    | false =>
      cases hbefore : s.lobby.isListed k with
      | false => exact Or.inl rfl
      | true =>
        refine Or.inr ⟨rfl, ?_⟩
        apply Classical.byContradiction
        intro hgoes
        have hstays : s.lobby.removeFinished.isListed k = true := by
          rw [Lobby.isListed_removeFinished_iff]
          refine ⟨hbefore, ?_⟩
          intro c hc hdone
          exact hgoes ⟨c, (Lobby.console?_removeFinished s.lobby k).trans hc, by simp [hdone]⟩
        rw [hafter] at hstays
        simp at hstays
  | create => simp [Act.isDirected] at ha
  | halt => simp [Act.isDirected] at ha
  | _ => exact Or.inl ((sameList_perform (by simp) (by simp) (by simp)).isListed k)

theorem isListed_performAll_cases {acts : List Act} (hacts : ∀ a ∈ acts, a.isDirected = true)
    (k : Nat)
    : (s.performAll acts).lobby.isListed k = s.lobby.isListed k ∨
        (s.performAll acts).lobby.isListed k = false ∧ (s.performAll acts).Progressed k .done := by
  induction acts generalizing s with
  | nil => exact Or.inl rfl
  | cons a acts ih =>
    rw [performAll_cons]
    rcases ih (fun a ha => hacts a (List.mem_cons_of_mem _ ha)) with htail | htail
    . rcases isListed_perform_cases (hacts a List.mem_cons_self) k with hhead | ⟨hgone, hdone⟩
      . exact Or.inl (htail.trans hhead)
      . exact Or.inr ⟨htail.trans hgone, hdone.performAll acts⟩
    . exact Or.inr htail

end Perform

section Step

variable {s : Server} {k : Nat} {op : Operation}

theorem isDirected_acts (hop : op.isDirected = true) : ∀ a ∈ s.acts op, a.isDirected = true := by
  unfold acts
  cases op with
  | plugController request =>
    dsimp
    split <;> simp [Act.isDirected]
  | startGame request =>
    dsimp
    split <;> simp [Act.isDirected]
  | receive i e =>
    dsimp
    repeat' split
    all_goals simp [Act.isDirected]
  | endStream i =>
    dsimp
    repeat' split
    all_goals simp [Act.isDirected]
  | _ => simp [Operation.isDirected] at hop

/-- What becomes of an event: nothing, or it is handled, refused, or handled after it bound its stream. -/
theorem acts_receive (s : Server) (i : Nat) (e : OutgoingEvent)
    : s.acts (.receive i e) = [] ∨
        (∃ b, s.boundTo i = some b ∧ s.acts (.receive i e) = [.handle i e]) ∨
        (∃ consoleId status, s.acts (.receive i e) = [.reply i consoleId status]) ∨
        ∃ ready b, s.boundTo i = none ∧ e.ready = some ready ∧
          s.lobby.find? ⟨ready.consoleId⟩ = some b.console ∧
          (s.perform (.bind i ready)).boundTo i = some b ∧
          s.acts (.receive i e) = [.bind i ready, .handle i e] := by
  unfold acts
  dsimp
  split
  . exact Or.inl rfl
  . next stream hstream =>
    split
    . exact Or.inl rfl
    . split
      . next b hb => exact Or.inr (Or.inl ⟨b, boundTo_eq_some_iff.2 ⟨stream, hstream, hb⟩, rfl⟩)
      . next hnone =>
        have hbound : s.boundTo i = none := by simp [boundTo, hstream, hnone]
        split
        . exact Or.inr (Or.inr (Or.inl ⟨_, _, rfl⟩))
        . next ready hready =>
          split
          . exact Or.inr (Or.inr (Or.inl ⟨_, _, rfl⟩))
          . next r hbind =>
            have hperform : s.perform (.bind i ready) = r.2 := by
              simp only [perform, hstream, hbind]
            rcases bind?_eq_ok hbind with ⟨_, _, _, hlookup, _⟩
            refine Or.inr (Or.inr (Or.inr ⟨ready, r.1, hbound, hready, ?_, ?_, rfl⟩))
            . exact Lobby.find?_of_lookup? hlookup
            . rw [hperform]
              exact boundTo_of_bind? hstream hbind

theorem every_target_acts (hop : op.isDirected = true) (hne : s.concerned op ≠ some k)
    : every (fun s a => s.target a ≠ some k) s (s.acts op) = true := by
  cases op with
  | plugController request =>
    unfold acts
    dsimp
    split
    . rfl
    . next hlookup => simpa [every, target, concerned, Lobby.find?_of_lookup? hlookup] using hne
  | startGame request =>
    unfold acts
    dsimp
    split
    . rfl
    . next hlookup => simpa [every, target, concerned, Lobby.find?_of_lookup? hlookup] using hne
  | receive i e =>
    rcases acts_receive s i e with hacts | ⟨b, hb, hacts⟩ | ⟨_, _, hacts⟩ |
      ⟨ready, b, hnone, hready, hfind, hb, hacts⟩
    . rw [hacts]
      rfl
    . rw [hacts]
      simpa [every, target, concerned, hb] using hne
    . rw [hacts]
      simp [every, target]
    . rw [hacts]
      simpa [every, target, concerned, hnone, hready, hfind, hb] using hne
  | endStream i =>
    have hclose : s.target (.close i) ≠ some k := hne
    rcases acts_endStream s i with hnil | ⟨_, hacts | hacts⟩
    . rw [hnil]
      rfl
    . rw [hacts]
      simpa [every] using hclose
    . rw [hacts]
      simpa [every, target] using hclose
  | _ => simp [Operation.isDirected] at hop

end Step

/--
An operation that is directed at a console, or comes on a stream that names it or belongs to one of its
clients, leaves every other console alone with all of its clients and with everything that is left on
their streams, whatever the operation carries. Consoles only leave the list when they are over, and none
comes onto it.
-/
theorem consoles_isolated (testMode : Bool) (limit : Option Nat) (ops : List Operation)
    (op : Operation) (hop : op.isDirected = true)
    : let s := (initial testMode limit).run ops
      let s' := s.step op
      (∀ k c, s.lobby.console? k = some c → s.concerned op ≠ some k → s.Isolated s' k) ∧
        ∀ k, s'.lobby.isListed k = s.lobby.isListed k ∨
          s'.lobby.isListed k = false ∧
            ∃ c, s'.lobby.console? k = some c ∧ c.status = .done := by
  intro s s'
  have hs : s.Consistent := consistent_run testMode limit ops
  have hs' : s' = s.performAll (s.acts op) := step_eq_performAll s op
  have hacts := isDirected_acts (s := s) hop
  constructor
  . intro k c hc hne
    rw [hs']
    exact isolated_performAll hs hc hacts (every_target_acts hop hne)
  . intro k
    rcases isListed_performAll_cases hacts k with hsame | ⟨hgone, c, hc, hdone⟩
    . exact Or.inl (hs' ▸ hsame)
    . exact Or.inr ⟨hs' ▸ hgone, c, hs' ▸ hc, ConsoleStatus.eq_done hdone⟩

/-- Two consoles on which one player each is ready. -/
def neighbours : List Operation :=
  [.makeConsole {},
    .makeConsole {},
    .plugController { consoleId := 1, port1 := 1 },
    .plugController { consoleId := 2, port1 := 1 },
    .openStream,
    .openStream,
    .receive 0 { ready := some { consoleId := 1, clientId := 1 } },
    .receive 1 { ready := some { consoleId := 2, clientId := 2 } },
    .startGame { consoleId := 1 }]

/-- The player of the first console pretends to be the other one. -/
def trespass : OutgoingEvent :=
  { keys := [{ consoleId := 2, port := 1 }], ready := some { consoleId := 2, clientId := 2 } }

theorem consoles_isolated_neighbours
    : let s := (initial false none).run neighbours
      s.concerned (.receive 0 trespass) = some 0 ∧ s.boundTo 1 = some ⟨1, ⟨2⟩⟩ ∧
        (s.step (.receive 0 trespass)).room.boxes[1]? = s.room.boxes[1]? ∧
        s.Isolated (s.step (.receive 0 trespass)) 1 ∧
        s.Isolated (s.step (.endStream 0)) 1 ∧
        (s.step (.endStream 0)).lobby.isListed 0 = false ∧
        ∃ c, (s.step (.endStream 0)).lobby.console? 0 = some c ∧ c.status = .done := by
  intro s
  have hconsole : (s.lobby.console? 1).isSome = true := by decide +kernel
  have hconcerned : s.concerned (.receive 0 trespass) = some 0 := by decide +kernel
  have hconcerned' : s.concerned (.endStream 0) = some 0 := by decide +kernel
  have hbound : s.boundTo 1 = some ⟨1, ⟨2⟩⟩ := by decide +kernel
  have hlisted : s.lobby.isListed 0 = true := by decide +kernel
  have hgone : (s.step (.endStream 0)).lobby.isListed 0 = false := by decide +kernel
  rcases Option.isSome_iff_exists.1 hconsole with ⟨c, hc⟩
  have htrespass := consoles_isolated false none neighbours (.receive 0 trespass) rfl
  have hend := consoles_isolated false none neighbours (.endStream 0) rfl
  have hisolated := htrespass.1 1 c hc (by rw [hconcerned]; decide)
  refine ⟨hconcerned, hbound, hisolated.box 1 ⟨2⟩ hbound, hisolated, ?_, hgone, ?_⟩
  . exact hend.1 1 c hc (by rw [hconcerned']; decide)
  . rcases hend.2 0 with hsame | ⟨_, hover⟩
    . rw [hgone, hlisted] at hsame
      simp at hsame
    . exact hover

end Server
end PadRelay
