import PadRelay.Proofs.Game.Acceptance
import PadRelay.Proofs.Game.LocalInput

/-!
This module contains what becomes of a game that waits for its start more than once. A wait looks at the
event that it reads, but not at the status of the game. So a start event that comes too late takes the
queues away from a running game if its ports are refused, and makes a terminated game run again if they
are not. Without such an event a running game keeps its queues, and a terminated game stays terminated.
-/

namespace PadRelay
namespace Game

variable {β : Type}

/-- The event that an action takes for the one that starts the game. -/
def awaited? (g : Game β) : Action β → Option IncomingEvent
  | .awaitStart => g.unread.head?
  | .readyAndAwaitStart (.ok inbound) false => inbound.events.head?
  | _ => none

/-- An event that starts the game of a console, unless something is wrong with its ports. -/
structure Calls (consoleId : ConsoleId) (e : IncomingEvent) (start : StartGame) : Prop where
  goesOn : e.stop = none
  starts : e.start = some start
  positive : 0 < start.consoleId
  own : start.consoleId = consoleId.value

/--
A start event comes too late: a running game refuses its ports, or a terminated game does not.
-/
def Upsets (g : Game β) (a : Action β) : Prop :=
  ∃ e start, g.awaited? a = some e ∧ Calls g.consoleId e start ∧
    ((g.status = .running ∧ ∃ fault, g.connect start.ports = .error fault) ∨
      (g.status = .terminated ∧ ∃ queues, g.connect start.ports = .ok queues))

theorem not_upsets_of_start {g : Game β} {a : Action β} (h : (g.awaited? a).bind (·.start) = none)
    : ¬ g.Upsets a := by
  rintro ⟨e, start, he, hcalls, _⟩
  simp [he, hcalls.starts] at h

theorem not_upsets_of_status {g : Game β} {a : Action β} (h : g.status = .notYetStarted)
    : ¬ g.Upsets a := by
  rintro ⟨_, _, _, _, ⟨hrunning, _⟩ | ⟨hterminated, _⟩⟩
  . simp [h] at hrunning
  . simp [h] at hterminated

theorem start_of_calls {g : Game β} {e : IncomingEvent} {start : StartGame}
    (h : Calls g.consoleId e start)
    : (∀ fault, g.connect start.ports = .error fault → (g.start e).1 = { g with queues := ∅ }) ∧
        ∀ queues, g.connect start.ports = .ok queues →
          (g.start e).1 = { g with queues, status := .running } := by
  have hown : ¬ (start.consoleId ≤ 0 ∨ start.consoleId ≠ g.consoleId.value) := by
    simp [h.own ▸ Int64.not_le.2 h.positive, h.own]
  unfold Game.start
  rw [h.goesOn, h.starts]
  simp only [Option.isSome_none, Bool.false_eq_true, ↓reduceIte, if_neg hown]
  constructor
  . intro fault hrefused
    rw [hrefused]
  . intro queues haccepted
    rw [haccepted]

/-- What an event that a wait reads makes of the status and the queues of a game. -/
inductive Outset (g : Game β) (e : IncomingEvent) : GameStatus → Queues β → Prop
  | stopped : Outset g e .terminated g.queues
  | ignored : Outset g e g.status g.queues
  | refused {start : StartGame} {fault : StartFault} : Calls g.consoleId e start →
    g.connect start.ports = .error fault → Outset g e g.status ∅
  | accepted {start : StartGame} {queues : Queues β} : Calls g.consoleId e start →
    g.connect start.ports = .ok queues → Outset g e .running queues

theorem outset_start (g : Game β) (e : IncomingEvent)
    : Outset g e (g.start e).1.status (g.start e).1.queues := by
  unfold start
  split
  . exact .stopped
  . next hstop =>
    split
    . exact .ignored
    . next start hstart =>
      split
      . exact .ignored
      . next hown =>
        rw [not_or, Int64.not_le, ne_eq, Classical.not_not] at hown
        have hcalls : Calls g.consoleId e start := ⟨by simpa using hstop, hstart, hown.1, hown.2⟩
        split
        . next hrefused => exact .refused hcalls hrefused
        . next haccepted => exact .accepted hcalls haccepted

/-- What an event makes of a game does not depend on the stream that it comes from. -/
theorem Outset.of_opened {g : Game β} {inbound : Inbound} {hungUp : Bool} {e : IncomingEvent}
    {status : GameStatus} {queues : Queues β} (h : Outset (g.opened inbound hungUp) e status queues)
    : Outset g e status queues := by
  cases h with
  | stopped => exact .stopped
  | ignored => exact .ignored
  | refused hcalls hrefused => exact .refused hcalls hrefused
  | accepted hcalls haccepted => exact .accepted hcalls haccepted

section Await

variable {g : Game β} {e : IncomingEvent}

/-- Only a stream that takes the announcement is waited for. -/
theorem awaited?_readyAndAwaitStart {answer : Except RpcFailure Inbound} {hungUp : Bool}
    (h : g.awaited? (.readyAndAwaitStart answer hungUp) = some e)
    : ∃ inbound, answer = .ok inbound ∧ hungUp = false ∧
        (g.opened inbound false).unread.head? = some e := by
  cases answer with
  | error failure => simp [awaited?] at h
  | ok inbound =>
    cases hungUp with
    | true => simp [awaited?] at h
    | false => exact ⟨inbound, rfl, rfl, h⟩

/-- A wait without an event to read does nothing to the game. -/
theorem awaitStart?_of_nil (hevents : g.unread = []) {o : Outcome β ClientError Unit}
    (h : g.awaitStart? = some o) : o.game.status = g.status ∧ o.game.queues = g.queues := by
  unfold awaitStart? at h
  split at h
  . rw [Option.some.injEq] at h
    rw [← h]
    exact ⟨rfl, rfl⟩
  . next inbound hinbound =>
    dsimp at h
    split at h
    . simp at h
    . rw [Option.some.injEq] at h
      rw [← h]
      exact ⟨rfl, rfl⟩
    . next hread => simp [unread, hinbound, (read_event hread).1] at hevents

theorem awaitStart?_of_head (hhead : g.unread.head? = some e)
    : ∃ rest o, g.awaitStart? = some o ∧
        o.game = ((g.opened rest g.hungUp).start e).1 ∧
        o.result = ((g.opened rest g.hungUp).start e).2 := by
  unfold unread at hhead
  unfold awaitStart?
  split
  . next hnone => simp [hnone] at hhead
  . next inbound hinbound =>
    rw [hinbound] at hhead
    dsimp at hhead ⊢
    cases hevents : inbound.events with
    | nil => simp [hevents] at hhead
    | cons e' rest =>
      have hread : inbound.read = .event e' { inbound with events := rest } := by
        simp [Inbound.read, hevents]
      obtain rfl : e' = e := by simpa [hevents] using hhead
      rw [hread]
      exact ⟨_, _, rfl, rfl, rfl⟩

end Await

section Asked

variable {coder : Coder β} {g : Game β} {port : Port} {r : FrameQueue.Request β}

/--
What may be asked of the queue of a port during some actions: what the emulator puts there and gets from
there, and to store the messages that are to be read or that arrive.
-/
def Asked (coder : Coder β) (g : Game β) (actions : List (Action β)) (port : Port) :
    FrameQueue.Request β → Prop
  | .put frame buttons =>
    (∃ updates, .put updates ∈ actions ∧ (⟨port, frame, buttons⟩ : ButtonUpdate β) ∈ updates) ∨
      ∃ e, (e ∈ g.unread ∨ ∃ a ∈ actions, e ∈ a.arriving) ∧ ∃ key ∈ e.keys,
        Port.ofNumber key.port = port ∧ key.frame = frame ∧ coder.decode key = .ok buttons
  | .get frame => .get port frame ∈ actions

theorem Asked.mono {actions actions' : List (Action β)} (h : Asked coder g actions port r)
    (hactions : ∀ a ∈ actions, a ∈ actions') : Asked coder g actions' port r := by
  cases r with
  | put frame buttons =>
    rcases h with ⟨updates, hput, hmem⟩ | ⟨e, he | ⟨a, ha, he⟩, hkey⟩
    . exact Or.inl ⟨updates, hactions _ hput, hmem⟩
    . exact Or.inr ⟨e, Or.inl he, hkey⟩
    . exact Or.inr ⟨e, Or.inr ⟨a, hactions a ha, he⟩, hkey⟩
  | get frame => exact hactions _ h

theorem asked_of_requests {a : Action β} (h : r ∈ g.requests coder port a)
    : Asked coder g [a] port r := by
  cases r with
  | put frame buttons =>
    rcases mem_requests h with ⟨updates, rfl, hmem⟩
    exact Or.inl ⟨updates, List.mem_cons_self, hmem⟩
  | get frame =>
    cases a with
    | get port' frame' =>
      unfold requests at h
      dsimp at h
      split at h
      . next heq =>
        simp only [List.mem_singleton, FrameQueue.Request.get.injEq] at h
        rw [h, heq]
        exact List.mem_cons_self
      . simp at h
    | put updates => simp [requests, putsFor] at h
    | _ => simp [requests] at h

variable [Inhabited β]

/-- The queues after some actions that ask nothing of them but what is allowed. -/
def Carries (coder : Coder β) (g : Game β) (actions : List (Action β)) (queues : Queues β) : Prop :=
  ∀ port, ∃ requests, queues.get? port = (g.queues.get? port).map (·.afterAll requests) ∧
    ∀ r ∈ requests, Asked coder g actions port r

theorem carries_refl (coder : Coder β) (g : Game β) (actions : List (Action β))
    : Carries coder g actions g.queues := by
  intro port
  exact ⟨[], by simp [FrameQueue.afterAll], by simp⟩

theorem asked_act {a : Action β} {rest : List (Action β)} (h : Asked coder (g.act coder a) rest port r)
    : Asked coder g (a :: rest) port r := by
  cases r with
  | put frame buttons =>
    rcases h with ⟨updates, hput, hmem⟩ | ⟨e, he, hkey⟩
    . exact Or.inl ⟨updates, List.mem_cons_of_mem _ hput, hmem⟩
    . refine Or.inr ⟨e, ?_, hkey⟩
      rcases he with he | ⟨a', ha', he⟩
      . cases (acts_act coder g a).unread e he with
        | inl hold => exact Or.inl hold
        | inr harriving => exact Or.inr ⟨a, List.mem_cons_self, harriving⟩
      . exact Or.inr ⟨a', List.mem_cons_of_mem _ ha', he⟩
  | get frame => exact List.mem_cons_of_mem _ h

/-- One more request that the queue of a port has served. -/
theorem Carries.insert {actions : List (Action β)} {queues : Queues β} {q : FrameQueue β}
    (h : Carries coder g actions queues) (hq : queues.get? port = some q)
    (hr : Asked coder g actions port r) : Carries coder g actions (queues.insert port (q.after r)) := by
  intro port'
  rcases h port' with ⟨requests, hport, hasked⟩
  rw [SortedMap.get?_insert]
  split
  . next heq =>
    subst heq
    rw [hq, eq_comm, Option.map_eq_some_iff] at hport
    rcases hport with ⟨q₀, hq₀, hafter⟩
    refine ⟨requests ++ [r], ?_, ?_⟩
    . rw [hq₀, Option.map_some, FrameQueue.afterAll_append, hafter]
      rfl
    . intro r' hr'
      cases List.mem_append.1 hr' with
      | inl hmem => exact hasked r' hmem
      | inr hmem => exact List.mem_singleton.1 hmem ▸ hr
  . exact ⟨requests, hport, hasked⟩

/-- Messages are stored like buttons of the emulator. -/
theorem Stores.carries {queues : Queues β} (h : Stores coder (g.unread.flatMap (·.keys)) g.queues queues)
    (actions : List (Action β)) : Carries coder g actions queues := by
  induction h with
  | refl => exact carries_refl coder g actions
  | @put queues' key q q' buttons _ hmem hq hdecode hput ih =>
    have hafter : q.after (.put key.frame buttons) = q' := by simp [FrameQueue.after, hput]
    rcases List.mem_flatMap.1 hmem with ⟨e, he, hkey⟩
    have hr : Asked coder g actions (Port.ofNumber key.port) (.put key.frame buttons) :=
      Or.inr ⟨e, Or.inl he, key, hkey, rfl, rfl, hdecode⟩
    rw [← hafter]
    exact ih.insert hq hr

theorem carries_get? {frame : Int32} {o : Outcome β GetError β}
    (h : g.get? coder port frame = some o) : Carries coder g [.get port frame] o.game.queues := by
  rcases got_get? h with ⟨read, hgot, _⟩
  have hread := hgot.stores.carries [.get port frame]
  rcases hgot.result with ⟨_, _, heq⟩ | ⟨buttons, q, q', _, hq, hget, heq⟩
  . rw [heq]
    exact hread
  . have hafter : q.after (.get frame) = q' := by simp [FrameQueue.after, hget]
    have hr : Asked coder g [.get port frame] port (.get frame) := List.mem_cons_self
    rw [heq, ← hafter]
    exact hread.insert hq hr

theorem act_readyAndAwaitStart (coder : Coder β) (g : Game β) (inbound : Inbound)
    : g.act coder (.readyAndAwaitStart (.ok inbound))
        =
      g.afterCall (g.opened inbound false).awaitStart? := by
  unfold act
  dsimp
  rw [readyAndAwaitStart?_ok]
  cases (g.opened inbound false).awaitStart? <;> rfl

/-- An action that reads an event to start the game does nothing else to it. -/
theorem act_of_awaited (coder : Coder β) {a : Action β} {e : IncomingEvent} (h : g.awaited? a = some e)
    : ∃ rest hungUp, g.act coder a = ((g.opened rest hungUp).start e).1 := by
  cases a with
  | awaitStart =>
    rcases awaitStart?_of_head h with ⟨rest, o, ho, hgame, _⟩
    refine ⟨rest, g.hungUp, ?_⟩
    unfold act
    rw [ho]
    exact hgame
  | readyAndAwaitStart answer hungUp =>
    rcases awaited?_readyAndAwaitStart h with ⟨inbound, rfl, rfl, hhead⟩
    rcases awaitStart?_of_head hhead with ⟨rest, o, ho, hgame, _⟩
    refine ⟨rest, false, ?_⟩
    rw [act_readyAndAwaitStart, ho]
    exact hgame
  | _ => simp [awaited?] at h

theorem outset_act (coder : Coder β) {a : Action β} {e : IncomingEvent} (h : g.awaited? a = some e)
    : Outset g e (g.act coder a).status (g.act coder a).queues := by
  rcases act_of_awaited coder h with ⟨rest, hungUp, hact⟩
  rw [hact]
  exact (outset_start (g.opened rest hungUp) e).of_opened

/-- An action that reads no such event may end the game and serves the queues. -/
theorem carries_act (coder : Coder β) {a : Action β} (h : g.awaited? a = none)
    : ((g.act coder a).status = g.status ∨ (g.act coder a).status = .terminated) ∧
        Carries coder g [a] (g.act coder a).queues := by
  have hsame := carries_refl coder g [a]
  cases a with
  | ready answer hungUp =>
    cases answer with
    | error failure => exact ⟨Or.inl rfl, hsame⟩
    | ok inbound => cases hungUp <;> exact ⟨Or.inl rfl, hsame⟩
  | awaitStart =>
    unfold act
    cases ho : g.awaitStart? with
    | none => exact ⟨Or.inl rfl, hsame⟩
    | some o =>
      rcases awaitStart?_of_nil (List.head?_eq_none_iff.1 h) ho with ⟨hstatus, hqueues⟩
      exact ⟨Or.inl hstatus, hqueues ▸ hsame⟩
  | readyAndAwaitStart answer hungUp =>
    cases answer with
    | error failure => exact ⟨Or.inl rfl, hsame⟩
    | ok inbound =>
      cases hungUp with
      | true => exact ⟨Or.inl rfl, hsame⟩
      | false =>
        rw [act_readyAndAwaitStart]
        cases ho : (g.opened inbound false).awaitStart? with
        | none => exact ⟨Or.inl rfl, hsame⟩
        | some o =>
          have hevents : (g.opened inbound false).unread = [] := List.head?_eq_none_iff.1 h
          rcases awaitStart?_of_nil hevents ho with ⟨hstatus, hqueues⟩
          refine ⟨Or.inl hstatus, ?_⟩
          unfold afterCall
          rw [hqueues]
          exact hsame
  | put updates =>
    unfold act
    dsimp
    rw [put_game]
    refine ⟨Or.inl rfl, ?_⟩
    intro port
    exact ⟨_, get?_storeUpdates coder g.consoleId g.localPorts updates g.queues,
      fun r hr => asked_of_requests hr⟩
  | get port frame =>
    unfold act
    dsimp
    cases hget : g.get? coder port frame with
    | none => exact ⟨Or.inl rfl, carries_refl coder g _⟩
    | some o => exact ⟨status_get? hget, carries_get? hget⟩
  | _ => exact ⟨Or.inl rfl, hsame⟩

end Asked

section Steady

variable [Inhabited β] {coder : Coder β} {g : Game β} {a : Action β} {actions : List (Action β)}

/-- No start event comes too late during some actions. -/
def Steady (coder : Coder β) : Game β → List (Action β) → Prop
  | _, [] => True
  | g, a :: rest => ¬ g.Upsets a ∧ Steady coder (g.act coder a) rest

theorem steady_append {before after : List (Action β)} (h : Steady coder g (before ++ after))
    : Steady coder g before ∧ Steady coder (g.run coder before) after := by
  induction before generalizing g with
  | nil => exact ⟨trivial, h⟩
  | cons a rest ih =>
    have hrest := ih h.2
    exact ⟨⟨h.1, hrest.1⟩, hrest.2⟩

/-- The queues of a game fit to its status. -/
structure Poised (g : Game β) : Prop where
  fresh : g.status = .notYetStarted → g.queues = ∅
  ready : g.status = .running → ∀ p, g.localPorts.contains p = true → ∃ q, g.queues.get? p = some q

theorem Carries.empty {queues : Queues β} (h : Carries coder g actions queues) (hempty : g.queues = ∅)
    : queues = ∅ := by
  apply SortedMap.ext_get?
  intro port
  rcases h port with ⟨requests, hport, _⟩
  rw [hport, hempty]
  rfl

theorem poised_act (coder : Coder β) (h : Poised g) (hnot : ¬ g.Upsets a)
    : Poised (g.act coder a) := by
  have hports := (acts_act coder g a).seat.localPorts
  generalize hact : g.act coder a = g' at hports ⊢
  cases hawaited : g.awaited? a with
  | none =>
    rcases carries_act coder hawaited with ⟨hstatus, hcarries⟩
    rw [hact] at hstatus hcarries
    constructor
    . intro hfresh
      cases hstatus with
      | inl hsame => exact hcarries.empty (h.fresh (hsame ▸ hfresh))
      | inr hterminated => simp [hterminated] at hfresh
    . intro hrunning p hlocal
      cases hstatus with
      | inl hsame =>
        rcases h.ready (hsame ▸ hrunning) p (hports ▸ hlocal) with ⟨q, hq⟩
        rcases hcarries p with ⟨requests, hport, _⟩
        rw [hq] at hport
        exact ⟨_, hport⟩
      | inr hterminated => simp [hterminated] at hrunning
  | some e =>
    have houtset := outset_act coder hawaited
    rw [hact] at houtset
    generalize hstatus : g'.status = status at houtset
    generalize hqueues : g'.queues = queues at houtset
    constructor
    . intro hfresh
      rw [hqueues]
      rw [hstatus] at hfresh
      cases houtset with
      | stopped => simp at hfresh
      | ignored => exact h.fresh hfresh
      | refused => rfl
      | accepted => simp at hfresh
    . intro hrunning p hlocal
      rw [hqueues]
      rw [hports] at hlocal
      rw [hstatus] at hrunning
      cases houtset with
      | stopped => simp at hrunning
      | ignored => exact h.ready hrunning p hlocal
      | refused hcalls hrefused =>
        exact absurd ⟨e, _, hawaited, hcalls, Or.inl ⟨hrunning, _, hrefused⟩⟩ hnot
      | accepted _ haccepted =>
        have hcovered := (addQueues_of_connect haccepted).2.2 p (PortSet.mem_toList.2 hlocal)
        exact SortedMap.contains_iff.1 hcovered

/-- A start event that comes too late is not without effect. -/
theorem act_of_upsets (coder : Coder β) (h : g.Upsets a)
    : (g.act coder a).status = .running ∧
        (g.status = .terminated ∨ (g.act coder a).queues = ∅) := by
  rcases h with ⟨e, start, hawaited, hcalls, hlate⟩
  rcases act_of_awaited coder hawaited with ⟨rest, hungUp, hact⟩
  rcases start_of_calls (g := g.opened rest hungUp) hcalls with ⟨hrefused, haccepted⟩
  rw [hact]
  rcases hlate with ⟨hrunning, fault, hconnect⟩ | ⟨hterminated, queues, hconnect⟩
  . rw [hrefused fault hconnect]
    exact ⟨hrunning, Or.inr rfl⟩
  . rw [haccepted queues hconnect]
    exact ⟨rfl, Or.inl hterminated⟩

/-- A running game keeps what waits in its queues and how far they were read. -/
theorem kept_act (coder : Coder β) (hrunning : g.status = .running) (hnot : ¬ g.Upsets a)
    : ((g.act coder a).status = .running ∨ (g.act coder a).status = .terminated) ∧
        ∀ p q, g.queues.get? p = some q → ∃ requests,
          (g.act coder a).queues.get? p = some (q.afterAll requests) ∧
          ∀ r ∈ requests, Asked coder g [a] p r := by
  have hsame : ∀ p q, g.queues.get? p = some q → ∃ requests,
      g.queues.get? p = some (q.afterAll requests) ∧ ∀ r ∈ requests, Asked coder g [a] p r := by
    intro p q hq
    exact ⟨[], hq, by simp⟩
  cases hawaited : g.awaited? a with
  | none =>
    rcases carries_act coder hawaited with ⟨hstatus, hcarries⟩
    refine ⟨hrunning ▸ hstatus, ?_⟩
    intro p q hq
    rcases hcarries p with ⟨requests, hport, hasked⟩
    rw [hq] at hport
    exact ⟨requests, hport, hasked⟩
  | some e =>
    have houtset := outset_act coder hawaited
    generalize (g.act coder a).status = status at houtset ⊢
    generalize (g.act coder a).queues = queues at houtset ⊢
    cases houtset with
    | stopped => exact ⟨Or.inr rfl, hsame⟩
    | ignored => exact ⟨Or.inl hrunning, hsame⟩
    | refused hcalls hrefused =>
      exact absurd ⟨e, _, hawaited, hcalls, Or.inl ⟨hrunning, _, hrefused⟩⟩ hnot
    | accepted _ haccepted =>
      refine ⟨Or.inl rfl, ?_⟩
      intro p q hq
      exact ⟨[], (connects_of_connect haccepted).kept p q hq, by simp⟩

theorem terminated_act (coder : Coder β) (hterminated : g.status = .terminated)
    (hnot : ¬ g.Upsets a) : (g.act coder a).status = .terminated := by
  cases hawaited : g.awaited? a with
  | none =>
    rcases (carries_act coder hawaited).1 with hstatus | hstatus
    . rw [hstatus, hterminated]
    . exact hstatus
  | some e =>
    have houtset := outset_act coder hawaited
    generalize (g.act coder a).status = status at houtset ⊢
    generalize (g.act coder a).queues = queues at houtset
    cases houtset with
    | stopped => rfl
    | ignored => exact hterminated
    | refused => exact hterminated
    | accepted hcalls haccepted =>
      exact absurd ⟨e, _, hawaited, hcalls, Or.inr ⟨hterminated, _, haccepted⟩⟩ hnot

/-- A game starts with an event that it accepts. -/
theorem begins_act (coder : Coder β) (hstatus : g.status = .notYetStarted) (hempty : g.queues = ∅)
    (hrunning : (g.act coder a).status = .running)
    : ∃ e start, g.awaited? a = some e ∧ Accepts g.consoleId g.localPorts e start ∧
        Begins g.localPorts start.ports (g.act coder a) := by
  cases hawaited : g.awaited? a with
  | none =>
    rcases (carries_act coder hawaited).1 with hsame | hsame
    . simp [hsame, hstatus] at hrunning
    . simp [hsame] at hrunning
  | some e =>
    rcases act_of_awaited coder hawaited with ⟨rest, hungUp, hact⟩
    rw [hact] at hrunning ⊢
    rcases start_accepts_or_refuses (g := g.opened rest hungUp) (e := e) hempty with
      ⟨_, start, haccepts, hbegins⟩ | ⟨_, _, _, hrefused⟩
    . exact ⟨e, start, rfl, haccepts, hbegins⟩
    . rw [hrefused] at hrunning
      split at hrunning
      . simp at hrunning
      . simp [opened, hstatus] at hrunning

theorem terminated_run (hsteady : Steady coder g actions) (hterminated : g.status = .terminated)
    : (g.run coder actions).status = .terminated := by
  induction actions generalizing g with
  | nil => exact hterminated
  | cons a rest ih => exact ih hsteady.2 (terminated_act coder hterminated hsteady.1)

theorem running_run (hsteady : Steady coder g actions) (hrunning : g.status = .running)
    : (g.run coder actions).status = .running ∨ (g.run coder actions).status = .terminated := by
  induction actions generalizing g with
  | nil => exact Or.inl hrunning
  | cons a rest ih =>
    cases (kept_act coder hrunning hsteady.1).1 with
    | inl hgoes => exact ih hsteady.2 hgoes
    | inr hends =>
      have hterminated := terminated_run hsteady.2 hends
      exact Or.inr hterminated

theorem kept_run (hsteady : Steady coder g actions) (hrunning : g.status = .running)
    (hend : (g.run coder actions).status = .running) {p : Port} {q : FrameQueue β}
    (hq : g.queues.get? p = some q)
    : ∃ requests, (g.run coder actions).queues.get? p = some (q.afterAll requests) ∧
        ∀ r ∈ requests, Asked coder g actions p r := by
  induction actions generalizing g q with
  | nil => exact ⟨[], hq, by simp⟩
  | cons a rest ih =>
    rcases kept_act coder hrunning hsteady.1 with ⟨hgoes | hends, hkept⟩
    . rcases hkept p q hq with ⟨requests, hq', hasked⟩
      rcases ih hsteady.2 hgoes hend hq' with ⟨requests', hq'', hasked'⟩
      refine ⟨requests ++ requests', ?_, ?_⟩
      . rw [FrameQueue.afterAll_append]
        exact hq''
      . intro r hr
        cases List.mem_append.1 hr with
        | inl hr => exact (hasked r hr).mono (by simp)
        | inr hr => exact asked_act (hasked' r hr)
    . have hterminated := terminated_run hsteady.2 hends
      have hend : ((g.act coder a).run coder rest).status = .running := hend
      simp [hterminated] at hend

/-- A game that runs was started at one point. -/
theorem started_run (h : Poised g) (hsteady : Steady coder g actions)
    (hstatus : g.status = .notYetStarted) (hend : (g.run coder actions).status = .running)
    : ∃ before a after, actions = before ++ a :: after ∧
        (g.run coder before).status = .notYetStarted ∧ ∃ e start,
          (g.run coder before).awaited? a = some e ∧ Accepts g.consoleId g.localPorts e start ∧
          Begins g.localPorts start.ports (g.run coder (before ++ [a])) := by
  induction actions generalizing g with
  | nil =>
    have hend : g.status = .running := hend
    simp [hstatus] at hend
  | cons a rest ih =>
    have hseat := (acts_act coder g a).seat
    cases hnext : (g.act coder a).status with
    | notYetStarted =>
      rcases ih (poised_act coder h hsteady.1) hsteady.2 hnext hend with
        ⟨before, a', after, rfl, hbefore, e, start, hawaited, haccepts, hbegins⟩
      rw [hseat.consoleId, hseat.localPorts] at haccepts
      rw [hseat.localPorts] at hbegins
      exact ⟨a :: before, a', after, rfl, hbefore, e, start, hawaited, haccepts, hbegins⟩
    | running =>
      exact ⟨[], a, rest, rfl, hstatus, begins_act coder hstatus (h.fresh hstatus) hnext⟩
    | terminated =>
      have hterminated := terminated_run hsteady.2 hnext
      have hend : ((g.act coder a).run coder rest).status = .running := hend
      simp [hterminated] at hend

theorem poised_run (h : Poised g) (hsteady : Steady coder g actions)
    : Poised (g.run coder actions) := by
  induction actions generalizing g with
  | nil => exact h
  | cons a rest ih => exact ih (poised_act coder h hsteady.1) hsteady.2

end Steady

/--
A game that no start event comes too late for. While it runs there is a queue for each of its ports.
These go back to the one event that has started it: since then everything that happened to a queue was
asked for by the emulator or came as a message. Once the game is over it does not run again. The first
start event that comes too late puts an end to this.
-/
theorem running_queues_kept [Inhabited β] (coder : Coder β) {consoleId : ConsoleId}
    {clientId : ClientId} {ports : List Port} {g : Game β}
    (hcreate : create? consoleId clientId ports = .ok g) {actions : List (Action β)}
    (hsteady : Steady coder g actions)
    : ((g.run coder actions).status = .running →
        (∀ p, g.localPorts.contains p = true →
          ∃ q, (g.run coder actions).queues.get? p = some q) ∧
        ∃ before a after, actions = before ++ a :: after ∧
          (g.run coder before).status = .notYetStarted ∧
          (∃ e start, (g.run coder before).awaited? a = some e ∧
            Accepts g.consoleId g.localPorts e start ∧
            Begins g.localPorts start.ports (g.run coder (before ++ [a]))) ∧
          ∀ mid rest, after = mid ++ rest →
            (g.run coder (before ++ a :: mid)).status = .running ∧
            ∀ p q, (g.run coder (before ++ a :: mid)).queues.get? p = some q →
              ∃ requests, (g.run coder actions).queues.get? p = some (q.afterAll requests) ∧
                ∀ r ∈ requests, Asked coder (g.run coder (before ++ a :: mid)) rest p r) ∧
      (∀ before after, actions = before ++ after → (g.run coder before).status = .terminated →
        (g.run coder actions).status = .terminated) ∧
      ∀ a, (g.run coder actions).Upsets a →
        ((g.run coder actions).act coder a).status = .running ∧
          ((g.run coder actions).status = .terminated ∨
            ((g.run coder actions).act coder a).queues = ∅) := by
  have hnew := create?_eq_ok hcreate
  have hstatus : g.status = .notYetStarted := by rw [hnew]
  have hpoised : Poised g := by
    rw [hnew]
    exact ⟨fun _ => rfl, by simp⟩
  have hrun : ∀ l l', g.run coder (l ++ l') = (g.run coder l).run coder l' :=
    fun l l' => List.foldl_append
  refine ⟨?_, ?_, fun a => act_of_upsets coder⟩
  . intro hrunning
    constructor
    . intro p hlocal
      apply (poised_run hpoised hsteady).ready hrunning
      rw [(sameSeat_run coder g actions).localPorts]
      exact hlocal
    . rcases started_run hpoised hsteady hstatus hrunning with
        ⟨before, a, after, rfl, hbefore, e, start, hawaited, haccepts, hbegins⟩
      refine ⟨before, a, after, rfl, hbefore, ⟨e, start, hawaited, haccepts, hbegins⟩, ?_⟩
      rintro mid rest rfl
      have hsplit : before ++ a :: (mid ++ rest) = (before ++ [a]) ++ mid ++ rest := by simp
      have hmid : before ++ a :: mid = (before ++ [a]) ++ mid := by simp
      rw [hsplit] at hsteady hrunning ⊢
      rw [hmid]
      rcases steady_append hsteady with ⟨hsteady, hrest⟩
      rw [hrun _ rest] at hrunning ⊢
      have hgoes : (g.run coder (before ++ [a] ++ mid)).status = .running := by
        have hstate := running_run (steady_append hsteady).2 hbegins.running
        rw [← hrun] at hstate
        rcases hstate with hgoes | hends
        . exact hgoes
        . rw [terminated_run hrest hends] at hrunning
          simp at hrunning
      refine ⟨hgoes, ?_⟩
      intro p q hq
      exact kept_run hrest hgoes hrunning hq
  . rintro before after rfl hterminated
    rw [hrun]
    exact terminated_run (steady_append hsteady).2 hterminated

/-- The game waits again, but what it reads then are buttons. -/
def patient : List (Action UInt32) :=
  [.readyAndAwaitStart (.ok opening),
    .put [⟨.one, 0, 5⟩],
    .deliver [{ keys := [{ consoleId := 1, port := 2 }] }],
    .awaitStart]

theorem running_queues_kept_patient
    : (∃ q, (soloist.run .word patient).queues.get? .one = some q) ∧
        ∃ before a after, patient = before ++ a :: after ∧
          (soloist.run .word before).status = .notYetStarted ∧
          (soloist.run .word (before ++ [a])).status = .running ∧
          ∀ q, (soloist.run .word (before ++ [a])).queues.get? .one = some q →
            ∃ requests, (soloist.run .word patient).queues.get? .one = some (q.afterAll requests) := by
  have hcreate : create? ⟨1⟩ ⟨1⟩ [.one] = .ok soloist := by rfl
  have hsteady : Steady .word soloist patient := by
    refine ⟨not_upsets_of_status rfl, ?_, ?_, ?_, trivial⟩
    all_goals
      apply not_upsets_of_start
      decide +kernel
  have hrunning : (soloist.run .word patient).status = .running := by decide +kernel
  rcases (running_queues_kept .word hcreate hsteady).1 hrunning with
    ⟨hports, before, a, after, hsplit, hbefore, ⟨_, _, _, _, hbegins⟩, hkept⟩
  refine ⟨hports .one rfl, before, a, after, hsplit, hbefore, hbegins.running, ?_⟩
  intro q hq
  rcases (hkept [] after rfl).2 .one q hq with ⟨requests, hserved, _⟩
  exact ⟨requests, hserved⟩

/-- The start event comes twice. -/
def repeated : List (Action UInt32) :=
  [.readyAndAwaitStart (.ok opening), .put [⟨.one, 0, 5⟩], .deliver opening.events, .awaitStart]

/-- The start event comes after the end of the game. -/
def resumed : List (Action UInt32) :=
  [.readyAndAwaitStart (.ok { events := { stop := some {} } :: opening.events }), .awaitStart]

/--
The second start event takes away the queue of port 1 with the buttons that wait there, but the game
still runs, and a game that is over runs again.
-/
theorem not_running_queues_kept
    : create? ⟨1⟩ ⟨1⟩ [.one] = .ok soloist ∧ soloist.localPorts.contains .one = true ∧
        (soloist.run .word (repeated.take 3)).status = .running ∧
        ((soloist.run .word (repeated.take 3)).queues.get? .one).bind (·.frames.get? 0) = some 5 ∧
        (soloist.run .word repeated).status = .running ∧
        (soloist.run .word repeated).queues.get? .one = none ∧
        (soloist.run .word (resumed.take 1)).status = .terminated ∧
        (soloist.run .word resumed).status = .running := by
  refine ⟨rfl, rfl, ?_, ?_, ?_, ?_, ?_, ?_⟩
  all_goals decide +kernel

end Game
end PadRelay
