import PadRelay.Proofs.Game.FailedPut
import PadRelay.Proofs.Game.Restart
import PadRelay.Proofs.Server.Layout

/-!
This module contains what becomes of the delays that clients are plugged in with. A console takes any
delay and tells it in its start event, and a local queue adds it to the frames, so nobody looks at it
before buttons are sent. A put gives up because of a delay if and only if a local queue has taken the
buttons and the delay is negative. The sum of frame and delay is never the reason, as a queue that takes
buttons stores them under it.
-/

namespace PadRelay

variable {β : Type}

theorem FrameQueue.delay_afterAll [Inhabited β] (q : FrameQueue β)
    (requests : List (FrameQueue.Request β)) : (q.afterAll requests).delay = q.delay := by
  induction requests generalizing q with
  | nil => rfl
  | cons r rest ih => exact (ih (q.after r)).trans (delay_after q r)

namespace Server

/-- Some client of a console with the given identifier owns a port and has the given delay. -/
def OwnerDelay (s : Server) (consoleId : ConsoleId) (port : Port) (delay : Int32) : Prop :=
  ∃ k c id m, s.lobby.console? k = some c ∧ c.id = consoleId ∧ c.members.get? id = some m ∧
    m.owns port = true ∧ m.delay = delay

/-- A request for ports with the given delay was served. -/
def PluggedWith (s : Server) (ops : List Operation) (delay : Int32) : Prop :=
  ∃ before request after, ops = before ++ .plugController request :: after ∧
    (s.run before).served (.plugController request) = true ∧ request.delayFrames = delay

section Owner

variable {s : Server} {ops : List Operation} {k : Nat} {id : ClientId} {ports : PortSet}
variable {delay : Int32}

theorem PluggedWith.cons {op : Operation} (h : (s.step op).PluggedWith ops delay)
    : s.PluggedWith (op :: ops) delay := by
  rcases h with ⟨before, request, after, rfl, hserved, hdelay⟩
  exact ⟨op :: before, request, after, rfl, hserved, hdelay⟩

/-- Clients have the delays that were requested for them. -/
theorem pluggedWith_of_claim? (h : s.Consistent)
    (hclaim : (s.run ops).claim? k id = some (ports, delay))
    : s.claim? k id = some (ports, delay) ∨ s.PluggedWith ops delay := by
  induction ops generalizing s with
  | nil => exact Or.inl hclaim
  | cons op ops ih =>
    rcases ih (consistent_step h op) hclaim with hstep | hplugged
    . cases hserved : s.served op with
      | false =>
        rw [(preserves_step h hserved).claim?] at hstep
        exact Or.inl hstep
      | true =>
        cases op with
        | plugController request =>
          rcases plugs_of_served hserved with ⟨j, _, ports', _, _, hplugs⟩
          rw [hplugs.claim?] at hstep
          split at hstep
          . simp only [Option.some.injEq, Prod.mk.injEq] at hstep
            exact Or.inr ⟨[], request, ops, rfl, hserved, hstep.2⟩
          . exact Or.inl hstep
        | _ => simp [served] at hserved
    . exact Or.inr hplugged.cons

theorem pluggedWith_of_ownerDelay {testMode : Bool} {limit : Option Nat} {consoleId : ConsoleId}
    {port : Port} (h : ((initial testMode limit).run ops).OwnerDelay consoleId port delay)
    : (initial testMode limit).PluggedWith ops delay := by
  rcases h with ⟨k, c, id, m, hc, _, hm, _, rfl⟩
  have hclaim : ((initial testMode limit).run ops).claim? k id = some (m.ports, m.delay) := by
    rw [claim?_of_console? hc, Console.claim?_of_get? hm]
  rcases pluggedWith_of_claim? (consistent_initial testMode limit) hclaim with hnew | hplugged
  . simp [claim?, initial, Lobby.console?] at hnew
  . exact hplugged

/-- The delays that a start event tells are those of the owners of the ports. -/
theorem ownerDelay_of_received (testMode : Bool) (limit : Option Nat) {i : Nat} {e : IncomingEvent}
    {start : StartGame} {connected : ConnectedPort}
    (he : e ∈ trace (received i) (initial testMode limit) ((initial testMode limit).history ops))
    (hstart : e.start = some start) (hmem : connected ∈ start.ports)
    : ((initial testMode limit).run ops).OwnerDelay ⟨start.consoleId⟩
        (Port.ofNumber connected.port) connected.delayFrames := by
  have hcons := consistent_initial testMode limit
  have hdue := (sublist_performAll hcons i _).subset (List.mem_append_left _ he)
  have hnone : (initial testMode limit).room.pending i = [] := rfl
  rw [hnone, List.nil_append] at hdue
  rcases launched_of_due hcons hdue (by simp [hstart]) with ⟨b, _, hlaunched⟩
  have hmem' := hlaunched ▸ List.mem_singleton_self e
  rcases (trace_launched_of_mem hcons hmem').2 with ⟨c, hc, _, rfl⟩
  rw [← run_eq_performAll] at hc
  obtain rfl : _ = start := Option.some.inj hstart
  have hlaid := (exclusive_run testMode limit ops hc).laidOut
  rcases (hlaid.owner connected).1 hmem with ⟨id, m, p, hm, hp, rfl⟩
  exact ⟨b.console, c, id, m, hc, rfl, hm, by rwa [Port.ofNumber_number], rfl⟩

end Owner

end Server

namespace Game

section Put

variable {coder : Coder β} {consoleId : ConsoleId} {localPorts : PortSet} {queues : Queues β}
variable {updates : List (ButtonUpdate β)} {u : ButtonUpdate β} {q q' : FrameQueue β}
variable {port : Port} {delay : Int32}

/-- The frame of a message is the exact sum, and nothing but a negative delay is in its way. -/
theorem keyOf_of_put (coder : Coder β) (consoleId : ConsoleId)
    (hput : q.put u.frame u.buttons = .ok q')
    : ∃ x, x.toInt = u.frame.toInt + q.delay.toInt ∧
        keyOf coder consoleId q.delay u =
          if q.delay < 0 then .error (.invalidDelay u.port q.delay)
          else (coder.encode u.buttons
            { consoleId := consoleId.value, frame := x, port := u.port.number }).mapError
              .notEncoded := by
  rcases FrameQueue.put_eq_ok_iff.1 hput with ⟨x, _, hx, _⟩
  refine ⟨x, hx, ?_⟩
  unfold keyOf
  by_cases hnegative : q.delay < 0
  . simp [hnegative]
  . rw [if_neg hnegative, if_neg hnegative, addFrames?_eq_some_iff.2 hx]
    dsimp
    split
    . next hencode =>
      rw [hencode]
      rfl
    . next hencode =>
      rw [hencode]
      rfl

theorem keyOf_eq_invalidDelay_iff (hput : q.put u.frame u.buttons = .ok q')
    : keyOf coder consoleId q.delay u = .error (.invalidDelay port delay) ↔
        u.port = port ∧ q.delay = delay ∧ delay < 0 := by
  rcases keyOf_of_put coder consoleId hput with ⟨x, _, hkey⟩
  rw [hkey]
  split
  . next hnegative =>
    simp only [Except.error.injEq, PutError.invalidDelay.injEq]
    constructor
    . rintro ⟨hport, rfl⟩
      exact ⟨hport, rfl, hnegative⟩
    . exact fun h => ⟨h.1, h.2.1⟩
  . next hnegative =>
    cases coder.encode u.buttons
        { consoleId := consoleId.value, frame := x, port := u.port.number } with
    | error cause =>
      simp only [Except.mapError, Except.error.injEq, reduceCtorEq, false_iff, not_and]
      rintro _ rfl
      exact hnegative
    | ok key =>
      simp only [Except.mapError, reduceCtorEq, false_iff, not_and]
      rintro _ rfl
      exact hnegative

/-- The queue of a local port takes an update, but its delay is negative. -/
def Clashes (localPorts : PortSet) (queues : Queues β) (u : ButtonUpdate β) (delay : Int32) : Prop :=
  localPorts.contains u.port = true ∧ ∃ q q', queues.get? u.port = some q ∧
    q.put u.frame u.buttons = .ok q' ∧ q.delay = delay ∧ delay < 0

/-- An update is stored without a clash, or it ends the put whatever comes behind it. -/
theorem storeUpdates_cons_cases (coder : Coder β) (consoleId : ConsoleId) (localPorts : PortSet)
    (queues : Queues β) (u : ButtonUpdate β)
    : (∃ q q', queues.get? u.port = some q ∧ q.put u.frame u.buttons = .ok q' ∧
        (localPorts.contains u.port = true → ∃ key, keyOf coder consoleId q.delay u = .ok key) ∧
        ∀ delay, ¬ Clashes localPorts queues u delay) ∨
      ∃ e, (∀ rest, (storeUpdates coder consoleId localPorts (u :: rest) queues).1 = .error e) ∧
        ∀ port delay, e = .invalidDelay port delay ↔
          u.port = port ∧ Clashes localPorts queues u delay := by
  unfold storeUpdates
  cases hq : queues.get? u.port with
  | none => exact Or.inr ⟨_, fun _ => rfl, by simp [Clashes, hq]⟩
  | some q =>
    dsimp
    cases hput : q.put u.frame u.buttons with
    | error cause => exact Or.inr ⟨_, fun _ => rfl, by simp [Clashes, hq, hput]⟩
    | ok q' =>
      dsimp
      cases hlocal : localPorts.contains u.port with
      | false => exact Or.inl ⟨q, q', rfl, hput, by simp, by simp [Clashes, hlocal]⟩
      | true =>
        have hclashes : ∀ port delay, u.port = port ∧ Clashes localPorts queues u delay ↔
            keyOf coder consoleId q.delay u = .error (.invalidDelay port delay) := by
          intro port delay
          rw [keyOf_eq_invalidDelay_iff hput]
          simp [Clashes, hlocal, hq, hput]
        cases hkey : keyOf coder consoleId q.delay u with
        | ok key =>
          refine Or.inl ⟨q, q', rfl, hput, fun _ => ⟨key, hkey⟩, ?_⟩
          intro delay hclash
          have hrefused := (hclashes u.port delay).1 ⟨rfl, hclash⟩
          simp [hkey] at hrefused
        | error e =>
          refine Or.inr ⟨e, fun _ => rfl, ?_⟩
          intro port delay
          rw [hclashes, hkey, Except.error.injEq]

theorem map_eq_error_iff {ε α γ : Type} {r : Except ε α} {f : α → γ} {e : ε}
    : r.map f = .error e ↔ r = .error e := by
  cases r <;> simp [Except.map]

/-- What becomes of a put after its first updates were stored depends on the others only. -/
theorem storeUpdates_append {before rest : List (ButtonUpdate β)} {queues' : Queues β}
    {keys : List KeyState} {e : PutError}
    (h : storeUpdates coder consoleId localPorts before queues = (.ok keys, queues'))
    : (storeUpdates coder consoleId localPorts (before ++ rest) queues).1 = .error e ↔
        (storeUpdates coder consoleId localPorts rest queues').1 = .error e := by
  induction before generalizing queues keys with
  | nil =>
    rw [storeUpdates, Prod.mk.injEq] at h
    rw [h.2, List.nil_append]
  | cons v before ih =>
    rcases storeUpdates_cons_cases coder consoleId localPorts queues v with
      ⟨q, q', hq, hput, hkey, _⟩ | ⟨cause, hends, _⟩
    . rw [storeUpdates_cons hq hput hkey, Prod.mk.injEq] at h
      rw [List.cons_append, storeUpdates_cons hq hput hkey]
      dsimp at h ⊢
      rw [map_eq_error_iff]
      cases hstored : (storeUpdates coder consoleId localPorts before
          (queues.insert v.port q')).1 with
      | error cause => simp [hstored, Except.map] at h
      | ok keys' => exact ih (Prod.ext hstored h.2)
    . have hfailed := hends before
      simp [h] at hfailed

/-- The updates before the one that clashes with its delay are stored. -/
theorem storeUpdates_eq_invalidDelay_iff
    : (storeUpdates coder consoleId localPorts updates queues).1 = .error (.invalidDelay port delay) ↔
        ∃ before u rest keys queues', updates = before ++ u :: rest ∧
          storeUpdates coder consoleId localPorts before queues = (.ok keys, queues') ∧
          u.port = port ∧ Clashes localPorts queues' u delay := by
  constructor
  . intro h
    induction updates generalizing queues with
    | nil => simp [storeUpdates] at h
    | cons u updates ih =>
      rcases storeUpdates_cons_cases coder consoleId localPorts queues u with
        ⟨q, q', hq, hput, hkey, _⟩ | ⟨e, hends, he⟩
      . rw [storeUpdates_cons hq hput hkey] at h
        rcases ih (map_eq_error_iff.1 h) with ⟨before, v, rest, keys, queues', rfl, hstored, hclash⟩
        have hstored' : storeUpdates coder consoleId localPorts (u :: before) queues
            = (.ok (messages coder consoleId localPorts queues [u] ++ keys), queues') := by
          rw [storeUpdates_cons hq hput hkey, hstored]
          rfl
        exact ⟨u :: before, v, rest, _, queues', rfl, hstored', hclash⟩
      . rw [hends, Except.error.injEq, he] at h
        exact ⟨[], u, updates, [], queues, rfl, rfl, h⟩
  . rintro ⟨before, u, rest, keys, queues', rfl, hstored, hport, hclash⟩
    rw [storeUpdates_append hstored]
    rcases storeUpdates_cons_cases coder consoleId localPorts queues' u with
      ⟨_, _, _, _, _, hnot⟩ | ⟨e, hends, he⟩
    . exact absurd hclash (hnot delay)
    . rw [hends, (he port delay).2 ⟨hport, hclash⟩]

theorem put_eq_error_iff {g : Game β} {e : PutError} (he : ∀ cause, e ≠ .notTransmitted cause)
    : (g.put coder updates).result = .error e ↔
        (storeUpdates coder g.consoleId g.localPorts updates g.queues).1 = .error e := by
  constructor
  . exact fun h => storeUpdates_of_put_error h he
  . intro h
    unfold put
    dsimp
    rw [h]

end Put

section Run

variable {told : Port → Int32 → Prop} {coder : Coder β} {g : Game β} {a : Action β}

/-- The local queues have delays that were told. -/
def TakesDelays (told : Port → Int32 → Prop) (g : Game β) : Prop :=
  ∀ p q, g.localPorts.contains p = true → g.queues.get? p = some q → told p q.delay

/-- The start events of a console that are to be read tell nothing but these delays. -/
def TellsDelays (told : Port → Int32 → Prop) (consoleId : ConsoleId) (events : List IncomingEvent) :
    Prop :=
  ∀ e ∈ events, ∀ start, Calls consoleId e start → ∀ connected ∈ start.ports,
    told (Port.ofNumber connected.port) connected.delayFrames

theorem mem_of_awaited {e : IncomingEvent} (h : g.awaited? a = some e)
    : e ∈ g.unread ∨ e ∈ a.arriving := by
  cases a with
  | awaitStart => exact Or.inl (List.mem_of_head? h)
  | readyAndAwaitStart answer hungUp =>
    rcases awaited?_readyAndAwaitStart h with ⟨inbound, rfl, rfl, hhead⟩
    exact Or.inr (List.mem_of_head? hhead)
  | _ => simp [awaited?] at h

variable [Inhabited β]

theorem delay_storeUpdates {consoleId : ConsoleId} {localPorts : PortSet}
    {updates : List (ButtonUpdate β)} {queues : Queues β} {p : Port} {q : FrameQueue β}
    (hq : (storeUpdates coder consoleId localPorts updates queues).2.get? p = some q)
    : ∃ q₀, queues.get? p = some q₀ ∧ q.delay = q₀.delay := by
  rw [get?_storeUpdates, Option.map_eq_some_iff] at hq
  rcases hq with ⟨q₀, hq₀, rfl⟩
  exact ⟨q₀, hq₀, FrameQueue.delay_afterAll q₀ _⟩

theorem takesDelays_act (coder : Coder β) (h : g.TakesDelays told)
    (hunread : TellsDelays told g.consoleId g.unread)
    (harriving : TellsDelays told g.consoleId a.arriving) : (g.act coder a).TakesDelays told := by
  intro p q hlocal hq
  rw [(acts_act coder g a).seat.localPorts] at hlocal
  cases hawaited : g.awaited? a with
  | none =>
    rcases (carries_act coder hawaited).2 p with ⟨requests, hport, _⟩
    rw [hq, eq_comm, Option.map_eq_some_iff] at hport
    rcases hport with ⟨q₀, hq₀, rfl⟩
    rw [FrameQueue.delay_afterAll]
    exact h p q₀ hlocal hq₀
  | some e =>
    have houtset := outset_act coder hawaited
    generalize (g.act coder a).status = status at houtset
    generalize (g.act coder a).queues = queues at houtset hq
    cases houtset with
    | stopped => exact h p q hlocal hq
    | ignored => exact h p q hlocal hq
    | refused => simp at hq
    | @accepted start _ hcalls hconnect =>
      rcases (connects_of_connect hconnect).origin p q hq with hq | ⟨connected, hmem, rfl, rfl⟩
      . exact h p q hlocal hq
      . have htold : told (Port.ofNumber connected.port) connected.delayFrames := by
          cases mem_of_awaited hawaited with
          | inl he => exact hunread e he start hcalls connected hmem
          | inr he => exact harriving e he start hcalls connected hmem
        simpa [newQueue, hlocal, FrameQueue.forLocal] using htold

theorem takesDelays_run (coder : Coder β) (h : g.TakesDelays told)
    (hunread : TellsDelays told g.consoleId g.unread) {actions : List (Action β)}
    (harriving : ∀ a ∈ actions, TellsDelays told g.consoleId a.arriving)
    : (g.run coder actions).TakesDelays told := by
  induction actions generalizing g with
  | nil => exact h
  | cons a rest ih =>
    rw [List.forall_mem_cons] at harriving
    have hacts := acts_act coder g a
    have hconsole := hacts.seat.consoleId
    refine ih (takesDelays_act coder h hunread harriving.1) ?_ (hconsole ▸ harriving.2)
    intro e he
    rw [hconsole]
    cases hacts.unread e he with
    | inl he => exact hunread e he
    | inr he => exact harriving.1 e he

end Run

/--
A game whose start event comes from the server. A put gives up because of a delay if and only if all
updates before some update are stored, the queue of its port, which is a local one, takes its buttons,
and the delay of the port is negative. This is the delay that its owner was plugged in with. So who is
plugged in with a delay that is not negative never sees such a put, and the frame in its messages is the
exact sum of frame and delay.
-/
theorem put_gives_up_iff [Inhabited β] (testMode : Bool) (limit : Option Nat)
    (ops : List Server.Operation) (coder : Coder β) {consoleId : ConsoleId} {clientId : ClientId}
    {ports : List Port} {g : Game β} (hcreate : create? consoleId clientId ports = .ok g)
    {actions : List (Action β)}
    (hstarts : ∀ a ∈ actions, ∀ e ∈ a.arriving, e.start ≠ none →
      ∃ i, e ∈ Server.trace (Server.received i) (Server.initial testMode limit)
        ((Server.initial testMode limit).history ops))
    (updates : List (ButtonUpdate β))
    : let s := (Server.initial testMode limit).run ops
      let g' := g.run coder actions
      let result := (g'.put coder updates).result
      (∀ port delay, result = .error (.invalidDelay port delay) ↔
        ∃ before u rest keys queues, updates = before ++ u :: rest ∧
          storeUpdates coder g.consoleId g.localPorts before g'.queues = (.ok keys, queues) ∧
          u.port = port ∧ Clashes g.localPorts queues u delay) ∧
      (∀ port delay, result = .error (.invalidDelay port delay) →
        g.localPorts.contains port = true ∧ delay < 0 ∧ s.OwnerDelay g.consoleId port delay ∧
          (Server.initial testMode limit).PluggedWith ops delay) ∧
      ((∀ port delay, g.localPorts.contains port = true → s.OwnerDelay g.consoleId port delay →
          0 ≤ delay) →
        ∀ port delay, result ≠ .error (.invalidDelay port delay)) ∧
      ∀ port q, g.localPorts.contains port = true → g'.queues.get? port = some q →
        s.OwnerDelay g.consoleId port q.delay ∧
          ∀ u q', u.port = port → q.put u.frame u.buttons = .ok q' →
            ∃ x, x.toInt = u.frame.toInt + q.delay.toInt ∧
              keyOf coder g.consoleId q.delay u =
                if q.delay < 0 then .error (.invalidDelay port q.delay)
                else (coder.encode u.buttons
                  { consoleId := g.consoleId.value, frame := x, port := port.number }).mapError
                    .notEncoded := by
  intro s g' result
  have hnew := create?_eq_ok hcreate
  have hempty : g.TakesDelays (s.OwnerDelay g.consoleId) := by
    rw [hnew]
    intro p q _ hq
    simp at hq
  have hunread : TellsDelays (s.OwnerDelay g.consoleId) g.consoleId g.unread := by
    rw [hnew]
    intro e he
    simp [unread] at he
  have harriving : ∀ a ∈ actions,
      TellsDelays (s.OwnerDelay g.consoleId) g.consoleId a.arriving := by
    intro a ha e he start hcalls connected hmem
    rcases hstarts a ha e he (by simp [hcalls.starts]) with ⟨i, hreceived⟩
    have howner := Server.ownerDelay_of_received testMode limit hreceived hcalls.starts hmem
    rw [hcalls.own] at howner
    exact howner
  have hdelays : g'.TakesDelays (s.OwnerDelay g.consoleId) :=
    takesDelays_run coder hempty hunread harriving
  have hseat := sameSeat_run coder g actions
  unfold TakesDelays at hdelays
  rw [hseat.localPorts] at hdelays
  have hiff : ∀ port delay, result = .error (.invalidDelay port delay) ↔
      ∃ before u rest keys queues, updates = before ++ u :: rest ∧
        storeUpdates coder g.consoleId g.localPorts before g'.queues = (.ok keys, queues) ∧
        u.port = port ∧ Clashes g.localPorts queues u delay := by
    intro port delay
    rw [← hseat.consoleId, ← hseat.localPorts, ← storeUpdates_eq_invalidDelay_iff]
    exact put_eq_error_iff (by simp)
  have hcause : ∀ port delay, result = .error (.invalidDelay port delay) →
      g.localPorts.contains port = true ∧ delay < 0 ∧ s.OwnerDelay g.consoleId port delay ∧
        (Server.initial testMode limit).PluggedWith ops delay := by
    intro port delay hresult
    rcases (hiff port delay).1 hresult with
      ⟨before, u, rest, keys, queues, _, hstored, rfl, hlocal, q, q', hq, _, rfl, hnegative⟩
    have hqueues : (storeUpdates coder g.consoleId g.localPorts before g'.queues).2 = queues := by
      rw [hstored]
    rw [← hqueues] at hq
    rcases delay_storeUpdates hq with ⟨q₀, hq₀, hsame⟩
    have howner := hdelays u.port q₀ hlocal hq₀
    rw [← hsame] at howner
    exact ⟨hlocal, hnegative, howner, Server.pluggedWith_of_ownerDelay howner⟩
  refine ⟨hiff, hcause, ?_, ?_⟩
  . intro hplayable port delay hresult
    rcases hcause port delay hresult with ⟨hlocal, hnegative, howner, _⟩
    exact absurd hnegative (Int32.not_lt.2 (hplayable port delay hlocal howner))
  . intro port q hlocal hq
    refine ⟨hdelays port q hlocal hq, ?_⟩
    rintro u q' rfl hput
    exact keyOf_of_put coder g.consoleId hput

/-- Two clients with delays of 3 and -1 frames, who both receive the start event. -/
def unequal : List Server.Operation :=
  [.makeConsole {},
    .plugController { consoleId := 1, port1 := 1, delayFrames := 3 },
    .plugController { consoleId := 1, port1 := 2, delayFrames := -1 },
    .openStream,
    .openStream,
    .receive 0 { ready := some { consoleId := 1, clientId := 1 } },
    .receive 1 { ready := some { consoleId := 1, clientId := 2 } },
    .startGame { consoleId := 1 },
    .take 0 1,
    .take 1 1]

def unequalStart : IncomingEvent :=
  { start := some { consoleId := 1, ports := [⟨1, 3⟩, ⟨2, -1⟩] } }

/-- A game of console 1 with one port. -/
def onePort (clientId : ClientId) (port : Port) : Game UInt32 :=
  { consoleId := ⟨1⟩, clientId, localPorts := .ofList [port] }

def unequalWait : List (Action UInt32) :=
  [.readyAndAwaitStart (.ok { events := [unequalStart] })]

/-- The client of port 1 never sees such a put. The one of port 2 sees it as soon as it may put. -/
theorem put_gives_up_iff_unequal
    : (∀ updates port delay,
        (((onePort ⟨1⟩ .one).run .word unequalWait).put .word updates).result
          ≠
        .error (.invalidDelay port delay)) ∧
      (((onePort ⟨2⟩ .two).run .word unequalWait).put .word [⟨.two, 1, 5⟩]).result
        =
      .error (.invalidDelay .two (-1)) := by
  have hreceived : unequalStart ∈ Server.trace (Server.received 0) (Server.initial false none)
      ((Server.initial false none).history unequal) := by
    decide +kernel
  have hstarts : ∀ a ∈ unequalWait, ∀ e ∈ a.arriving, e.start ≠ none →
      ∃ i, e ∈ Server.trace (Server.received i) (Server.initial false none)
        ((Server.initial false none).history unequal) := by
    intro a ha e he _
    rw [List.mem_singleton.1 ha] at he
    rw [List.mem_singleton.1 he]
    exact ⟨0, hreceived⟩
  constructor
  . intro updates
    have hfirst : create? ⟨1⟩ ⟨1⟩ [.one] = .ok (onePort ⟨1⟩ .one) := by rfl
    apply (put_gives_up_iff false none unequal .word hfirst hstarts updates).2.2.1
    rintro port delay hport ⟨k, c, id, m, hc, _, hm, howns, rfl⟩
    have hown : ∀ e ∈ ((Server.initial false none).run unequal).lobby.consoles,
        ∀ x ∈ e.console.members.entries, x.2.owns .one = true → 0 ≤ x.2.delay := by
      decide +kernel
    have hone : port = .one := by
      rw [← PortSet.mem_toList] at hport
      exact List.mem_singleton.1 hport
    unfold Lobby.console? at hc
    rw [Option.map_eq_some_iff] at hc
    rcases hc with ⟨e, he, rfl⟩
    rw [SortedMap.get?_eq_some_iff] at hm
    exact hown e (List.mem_of_getElem? he) (id, m) hm (hone ▸ howns)
  . have hsecond : create? ⟨1⟩ ⟨2⟩ [.two] = .ok (onePort ⟨2⟩ .two) := by rfl
    apply ((put_gives_up_iff false none unequal .word hsecond hstarts _).1 _ _).2
    have hq : ((onePort ⟨2⟩ .two).run .word unequalWait).queues.get? .two
        = some (.forLocal (-1)) := by
      decide +kernel
    exact ⟨[], _, [], [], _, rfl, rfl, rfl, rfl, _, _, hq, rfl, rfl, by decide⟩

/-- A client is plugged in with a delay of -1 frames, so its first put gives up. -/
theorem not_put_playable
    : let s := (Server.initial false none).run (unequal.take 2)
      s.served (.plugController { consoleId := 1, port1 := 2, delayFrames := -1 }) = true ∧
        unequalStart ∈ Server.trace (Server.received 1) (Server.initial false none)
          ((Server.initial false none).history unequal) ∧
        create? ⟨1⟩ ⟨2⟩ [.two] = .ok (onePort ⟨2⟩ .two) ∧
        (((onePort ⟨2⟩ .two).run .word unequalWait).put .word [⟨.two, 1, 5⟩]).result
          =
        .error (.invalidDelay .two (-1)) := by
  refine ⟨?_, ?_, rfl, ?_⟩
  all_goals decide +kernel

end Game
end PadRelay
