import PadRelay.Game.Buttons
import PadRelay.Proofs.Coder
import PadRelay.Proofs.FrameQueue
import PadRelay.Proofs.Game.Start

/-!
This module contains the theory of putting and getting buttons: which updates the queues of a game
accept, what is sent about them, and what reading the event stream may do to the queues.
-/

namespace PadRelay

variable {β : Type}

/-- Buttons were put into some of the queues. -/
def ExtendsAll (queues queues' : Queues β) : Prop :=
  ∀ port, (queues.get? port = none → queues'.get? port = none) ∧
    ∀ q, queues.get? port = some q → ∃ q', queues'.get? port = some q' ∧ q.Extends q'

theorem ExtendsAll.refl (queues : Queues β) : ExtendsAll queues queues :=
  fun _ => ⟨fun h => h, fun q hq => ⟨q, hq, .refl q⟩⟩

theorem ExtendsAll.trans {queues queues' queues'' : Queues β} (h : ExtendsAll queues queues')
    (h' : ExtendsAll queues' queues'') : ExtendsAll queues queues'' := by
  intro port
  constructor
  . intro hnone
    exact (h' port).1 ((h port).1 hnone)
  . intro q hq
    rcases (h port).2 q hq with ⟨q', hq', hext⟩
    rcases (h' port).2 q' hq' with ⟨q'', hq'', hext'⟩
    exact ⟨q'', hq'', hext.trans hext'⟩

theorem extendsAll_insert {queues : Queues β} {port : Port} {q q' : FrameQueue β}
    (hq : queues.get? port = some q) (hext : q.Extends q')
    : ExtendsAll queues (queues.insert port q') := by
  intro port'
  rw [SortedMap.get?_insert]
  split
  . next heq =>
    rw [heq, hq]
    constructor
    . simp
    . intro q₁ hq₁
      rw [Option.some.injEq] at hq₁
      exact ⟨q', rfl, hq₁ ▸ hext⟩
  . exact ExtendsAll.refl queues port'

namespace Game

variable {coder : Coder β}

/-- The updates that the queues accept, up to the first one at which `put` gives up. -/
def accepted (coder : Coder β) (consoleId : ConsoleId) (localPorts : PortSet) :
    List (ButtonUpdate β) → Queues β → List (ButtonUpdate β)
  | [], _ => []
  | u :: rest, queues =>
    match queues.get? u.port with
    | none => []
    | some queue =>
      match queue.put u.frame u.buttons with
      | .error _ => []
      | .ok stored =>
        if !localPorts.contains u.port then
          u :: accepted coder consoleId localPorts rest (queues.insert u.port stored)
        else
          match keyOf coder consoleId queue.delay u with
          | .error _ => [u]
          | .ok _ => u :: accepted coder consoleId localPorts rest (queues.insert u.port stored)

/-- What every accepted update keeps, putting any number of updates keeps. -/
theorem storeUpdates_induction (coder : Coder β) (consoleId : ConsoleId) (localPorts : PortSet)
    (updates : List (ButtonUpdate β)) {P : Queues β → List (ButtonUpdate β) → Prop}
    (hput : ∀ queues done u q q', P queues done → u ∈ updates → queues.get? u.port = some q →
      q.put u.frame u.buttons = .ok q' → P (queues.insert u.port q') (done ++ [u]))
    (queues : Queues β) (done : List (ButtonUpdate β)) (h : P queues done)
    : P (storeUpdates coder consoleId localPorts updates queues).2
        (done ++ accepted coder consoleId localPorts updates queues) := by
  induction updates generalizing queues done with
  | nil => simpa [storeUpdates, accepted] using h
  | cons u rest ih =>
    have ih := fun {queues done} => @ih (fun queues done u' q q' hP hmem =>
      hput queues done u' q q' hP (List.mem_cons_of_mem _ hmem)) queues done
    unfold storeUpdates accepted
    cases hq : queues.get? u.port with
    | none => simpa using h
    | some q =>
      cases hstored : q.put u.frame u.buttons with
      | error cause => simpa [hstored] using h
      | ok q' =>
        have hstep := hput queues done u q q' h List.mem_cons_self hq hstored
        dsimp
        rw [hstored]
        dsimp
        have hrest := ih hstep
        rw [List.append_assoc] at hrest
        split
        . exact hrest
        . cases keyOf coder consoleId q.delay u with
          | error e => exact hstep
          | ok key => exact hrest

theorem keyOf_eq_ok (hc : coder.Lawful) {consoleId : ConsoleId} {delay : Int32}
    {u : ButtonUpdate β} {key : KeyState} (h : keyOf coder consoleId delay u = .ok key)
    : key.consoleId = consoleId.value ∧ Port.ofNumber key.port = u.port ∧
        key.frame.toInt = u.frame.toInt + delay.toInt ∧ coder.decode key = .ok u.buttons := by
  unfold keyOf at h
  split at h
  . simp at h
  . next frame hframe =>
    have hframe : addFrames? u.frame delay = some frame := by
      split at hframe
      . simp at hframe
      . exact hframe
    rw [addFrames?_eq_some_iff] at hframe
    rcases hc.encode u.buttons { consoleId := consoleId.value, frame, port := u.port.number } with
      ⟨key', hencode, hdecode, hconsole, hkey, hport⟩
    rw [hencode] at h
    simp only [Except.ok.injEq] at h
    subst h
    rw [hconsole, hkey, hport]
    exact ⟨rfl, Port.ofNumber_number u.port, hframe, hdecode⟩

/-- A message tells about the buttons of a local port, with the delay of the queue of that port. -/
structure Reports (coder : Coder β) (consoleId : ConsoleId) (localPorts : PortSet)
    (queues : Queues β) (u : ButtonUpdate β) (key : KeyState) : Prop where
  owned : localPorts.contains u.port = true
  consoleId : key.consoleId = consoleId.value
  port : Port.ofNumber key.port = u.port
  frame : ∃ q, queues.get? u.port = some q ∧ key.frame.toInt = u.frame.toInt + q.delay.toInt
  buttons : coder.decode key = .ok u.buttons

theorem Reports.of_insert {consoleId : ConsoleId} {localPorts : PortSet} {queues : Queues β}
    {u : ButtonUpdate β} {key : KeyState} {port : Port} {q q' : FrameQueue β}
    (h : Reports coder consoleId localPorts (queues.insert port q') u key)
    (hq : queues.get? port = some q) (hdelay : q'.delay = q.delay)
    : Reports coder consoleId localPorts queues u key := by
  refine ⟨h.owned, h.consoleId, h.port, ?_, h.buttons⟩
  rcases h.frame with ⟨q₁, hq₁, hframe⟩
  rw [SortedMap.get?_insert] at hq₁
  split at hq₁
  . next heq =>
    rw [Option.some.injEq] at hq₁
    refine ⟨q, heq ▸ hq, ?_⟩
    rw [hframe, ← hq₁, hdelay]
  . exact ⟨q₁, hq₁, hframe⟩

theorem mem_storeUpdates (hc : coder.Lawful) {consoleId : ConsoleId} {localPorts : PortSet}
    {updates : List (ButtonUpdate β)} {queues : Queues β} {keys : List KeyState}
    (h : (storeUpdates coder consoleId localPorts updates queues).1 = .ok keys) {key : KeyState}
    (hkey : key ∈ keys)
    : ∃ u ∈ accepted coder consoleId localPorts updates queues,
        Reports coder consoleId localPorts queues u key := by
  induction updates generalizing queues keys with
  | nil =>
    simp only [storeUpdates, Except.ok.injEq] at h
    simp [← h] at hkey
  | cons u rest ih =>
    unfold storeUpdates at h
    unfold accepted
    cases hq : queues.get? u.port with
    | none => simp [hq] at h
    | some q =>
      rw [hq] at h
      dsimp at h ⊢
      cases hstored : q.put u.frame u.buttons with
      | error cause => simp [hstored] at h
      | ok q' =>
        rw [hstored] at h
        dsimp at h ⊢
        -- Putting buttons does not change the delay, so the rest may be judged by the old queues.
        have hdelay := (FrameQueue.extends_put hstored).delay
        split at h
        . next hforeign =>
          rw [if_pos hforeign]
          rcases ih h hkey with ⟨u', hu', hreports⟩
          exact ⟨u', List.mem_cons_of_mem _ hu', hreports.of_insert hq hdelay⟩
        . next hlocal =>
          rw [if_neg hlocal]
          cases hkeyOf : keyOf coder consoleId q.delay u with
          | error e => simp [hkeyOf] at h
          | ok key₀ =>
            rw [hkeyOf] at h
            dsimp at h ⊢
            cases htail : (storeUpdates coder consoleId localPorts rest
                (queues.insert u.port q')).1 with
            | error e =>
              rw [htail] at h
              simp [Except.map] at h
            | ok keys₀ =>
              rw [htail] at h
              simp only [Except.map, Except.ok.injEq] at h
              rw [← h] at hkey
              cases List.mem_cons.1 hkey with
              | inl heq =>
                rw [heq]
                have hlocal : localPorts.contains u.port = true := by simpa using hlocal
                rcases keyOf_eq_ok hc hkeyOf with ⟨hconsole, hport, hframe, hdecode⟩
                exact ⟨u, List.mem_cons_self, hlocal, hconsole, hport, ⟨q, hq, hframe⟩, hdecode⟩
              | inr hkey =>
                rcases ih htail hkey with ⟨u', hu', hreports⟩
                exact ⟨u', List.mem_cons_of_mem _ hu', hreports.of_insert hq hdelay⟩

theorem put_game (coder : Coder β) (g : Game β) (updates : List (ButtonUpdate β))
    : (g.put coder updates).game
        =
      { g with queues := (storeUpdates coder g.consoleId g.localPorts updates g.queues).2 } := by
  unfold put
  dsimp
  split
  . rfl
  . rfl
  . split <;> rfl

theorem put_sent {g : Game β} {updates : List (ButtonUpdate β)} {e : OutgoingEvent}
    (h : (g.put coder updates).sent = some e)
    : ∃ keys, (storeUpdates coder g.consoleId g.localPorts updates g.queues).1 = .ok keys ∧
        e = { keys := keys } := by
  unfold put at h
  dsimp at h
  split at h
  . simp at h
  . simp at h
  . next keys _ hkeys =>
    split at h
    . simp at h
    . rw [Option.some.injEq] at h
      exact ⟨keys, hkeys, h.symm⟩

/-- The queues after any number of the given messages were stored in them. -/
inductive Stores (coder : Coder β) (keys : List KeyState) (queues : Queues β) : Queues β → Prop
  | refl : Stores coder keys queues queues
  | put {queues' : Queues β} {key : KeyState} {q q' : FrameQueue β} {buttons : β} :
    Stores coder keys queues queues' → key ∈ keys →
    queues'.get? (Port.ofNumber key.port) = some q → coder.decode key = .ok buttons →
    q.put key.frame buttons = .ok q' →
    Stores coder keys queues (queues'.insert (Port.ofNumber key.port) q')

theorem Stores.mono {keys keys' : List KeyState} {queues queues' : Queues β}
    (h : Stores coder keys queues queues') (hkeys : ∀ key ∈ keys, key ∈ keys')
    : Stores coder keys' queues queues' := by
  induction h with
  | refl => exact .refl
  | put _ hmem hq hdecode hput ih => exact .put ih (hkeys _ hmem) hq hdecode hput

theorem Stores.trans {keys : List KeyState} {queues queues' queues'' : Queues β}
    (h : Stores coder keys queues queues') (h' : Stores coder keys queues' queues'')
    : Stores coder keys queues queues'' := by
  induction h' with
  | refl => exact h
  | put _ hmem hq hdecode hput ih => exact .put ih hmem hq hdecode hput

theorem Stores.extendsAll {keys : List KeyState} {queues queues' : Queues β}
    (h : Stores coder keys queues queues') : ExtendsAll queues queues' := by
  induction h with
  | refl => exact .refl queues
  | put _ _ hq _ hput ih =>
    exact ih.trans (extendsAll_insert hq (FrameQueue.extends_put hput))

theorem stores_storeKeys (coder : Coder β) (keys : List KeyState) (queues : Queues β)
    : Stores coder keys queues (storeKeys coder keys queues).2 := by
  induction keys generalizing queues with
  | nil => exact .refl
  | cons key rest ih =>
    unfold storeKeys
    dsimp
    split
    . exact .refl
    . next q hq =>
      split
      . exact .refl
      . next buttons hdecode =>
        split
        . exact .refl
        . next q' hput =>
          have hhead : Stores coder (key :: rest) queues
              (queues.insert (Port.ofNumber key.port) q') :=
            .put .refl List.mem_cons_self hq hdecode hput
          apply hhead.trans
          apply (ih _).mono
          exact fun _ hmem => List.mem_cons_of_mem _ hmem

theorem stores_pump? {port : Port} {frame : Int32} {ending : Option StreamEnd} {reads : Nat}
    {events : List IncomingEvent} {queues : Queues β} {pumped : Pumped β}
    (h : pump? coder port frame ending reads events queues = some pumped)
    : pumped.inbound.events <:+ events ∧
        Stores coder (events.flatMap (·.keys)) queues pumped.queues := by
  induction events generalizing reads queues with
  | nil =>
    unfold pump? at h
    rw [Option.map_eq_some_iff] at h
    rcases h with ⟨_, _, rfl⟩
    exact ⟨List.suffix_refl _, .refl⟩
  | cons e rest ih =>
    have hhead : ∀ key ∈ e.keys, key ∈ (e :: rest).flatMap (·.keys) := by
      intro key hkey
      exact List.mem_flatMap.2 ⟨e, List.mem_cons_self, hkey⟩
    -- Whatever comes of an event, its keys are stored up to the first fault.
    have hstored := (stores_storeKeys coder e.keys queues).mono hhead
    have hsuffix : rest <:+ e :: rest := List.suffix_cons e rest
    unfold pump? at h
    dsimp at h
    split at h
    . rw [Option.some.injEq] at h
      rw [← h]
      exact ⟨hsuffix, .refl⟩
    . split at h
      . rw [Option.some.injEq] at h
        rw [← h]
        exact ⟨hsuffix, .refl⟩
      . split at h
        . next cause queues' heq =>
          rw [Option.some.injEq] at h
          rw [heq] at hstored
          rw [← h]
          exact ⟨hsuffix, hstored⟩
        . next queues' heq =>
          rw [heq] at hstored
          split at h
          . rw [Option.some.injEq] at h
            rw [← h]
            exact ⟨hsuffix, hstored⟩
          . have ih := ih h
            refine ⟨ih.1.trans hsuffix, hstored.trans (ih.2.mono ?_)⟩
            intro key hkey
            rw [List.mem_flatMap] at hkey ⊢
            rcases hkey with ⟨e', he', hkey⟩
            exact ⟨e', List.mem_cons_of_mem _ he', hkey⟩

variable [Inhabited β]

/-- What a game is after `get?`, and where the buttons come from that it gives. -/
structure Got (coder : Coder β) (g : Game β) (port : Port) (frame : Int32) (queues : Queues β)
    (o : Outcome β GetError β) : Prop where
  seat : g.SameSeat o.game
  unread : o.game.unread <:+ g.unread
  stores : Stores coder (g.unread.flatMap (·.keys)) g.queues queues
  result : (∃ cause, o.result = .error cause ∧ o.game.queues = queues) ∨
    ∃ buttons q q', o.result = .ok buttons ∧ queues.get? port = some q ∧
      q.get frame = .ok (buttons, q') ∧ o.game.queues = queues.insert port q'

theorem getQueued_ok {g : Game β} {port : Port} {frame : Int32} {q q' : FrameQueue β} {buttons : β}
    (hq : g.queues.get? port = some q) (hget : q.get frame = .ok (buttons, q'))
    : g.getQueued port frame = (.ok buttons, { g with queues := g.queues.insert port q' }) := by
  unfold getQueued
  rw [hq]
  dsimp
  rw [hget]

theorem getQueued_cases (g : Game β) (port : Port) (frame : Int32)
    : (∃ cause, g.getQueued port frame = (.error cause, g)) ∨
        ∃ buttons q q', g.queues.get? port = some q ∧ q.get frame = .ok (buttons, q') ∧
          g.getQueued port frame = (.ok buttons, { g with queues := g.queues.insert port q' }) := by
  unfold getQueued
  split
  . exact Or.inl ⟨_, rfl⟩
  . next q hq =>
    split
    . exact Or.inl ⟨_, rfl⟩
    . next buttons q' hget => exact Or.inr ⟨buttons, q, q', hq, hget, rfl⟩

theorem got_getQueued {g g₀ : Game β} {port : Port} {frame : Int32} {timed : List TimingEvent}
    (hseat : g₀.SameSeat g) (hunread : g.unread <:+ g₀.unread)
    (hstores : Stores coder (g₀.unread.flatMap (·.keys)) g₀.queues g.queues)
    : Got coder g₀ port frame g.queues
        { game := (g.getQueued port frame).2, result := (g.getQueued port frame).1, timed } := by
  rcases getQueued_cases g port frame with ⟨cause, heq⟩ | ⟨buttons, q, q', hq, hget, heq⟩
  . rw [heq]
    exact ⟨hseat, hunread, hstores, Or.inl ⟨cause, rfl, rfl⟩⟩
  . rw [heq]
    exact ⟨⟨hseat.consoleId, hseat.clientId, hseat.localPorts⟩, hunread, hstores,
      Or.inr ⟨buttons, q, q', rfl, hq, hget, rfl⟩⟩

theorem got_getFromStream? {g : Game β} {port : Port} {frame : Int32} {o : Outcome β GetError β}
    (h : g.getFromStream? coder port frame = some o)
    : ∃ queues, Got coder g port frame queues o := by
  unfold getFromStream? at h
  split at h
  . rw [Option.some.injEq] at h
    rw [← h]
    exact ⟨g.queues, .refl g, List.suffix_refl _, .refl, Or.inl ⟨_, rfl, rfl⟩⟩
  . next inbound hinbound =>
    rw [Option.map_eq_some_iff] at h
    rcases h with ⟨pumped, hpump, rfl⟩
    have hpump := stores_pump? hpump
    have hunread : g.unread = inbound.events := by simp [Game.unread, hinbound]
    rw [← hunread] at hpump
    refine ⟨pumped.queues, ?_⟩
    dsimp
    split
    . exact ⟨⟨rfl, rfl, rfl⟩, hpump.1, hpump.2, Or.inl ⟨_, rfl, rfl⟩⟩
    . exact got_getQueued (g := { g with
        inbound := some pumped.inbound
        queues := pumped.queues
        status := if pumped.stopped then .terminated else g.status })
        ⟨rfl, rfl, rfl⟩ hpump.1 hpump.2

theorem got_get? {g : Game β} {port : Port} {frame : Int32} {o : Outcome β GetError β}
    (h : g.get? coder port frame = some o)
    : ∃ queues, Got coder g port frame queues o ∧
        (g.localPorts.contains port = true → queues = g.queues) := by
  unfold get? at h
  split at h
  . next hlocal =>
    rw [Option.some.injEq] at h
    rw [← h]
    exact ⟨g.queues, got_getQueued (.refl g) (List.suffix_refl _) .refl, fun _ => rfl⟩
  . next hremote =>
    rw [Option.map_eq_some_iff] at h
    rcases h with ⟨o', h, rfl⟩
    suffices hgot : ∃ queues, Got coder g port frame queues o' by
      rcases hgot with ⟨queues, hgot⟩
      exact ⟨queues, ⟨hgot.seat, hgot.unread, hgot.stores, hgot.result⟩,
        fun hlocal => absurd hlocal hremote⟩
    unfold getRemote? at h
    dsimp at h
    split at h
    . exact got_getFromStream? h
    . rw [Option.some.injEq] at h
      rw [← h]
      exact ⟨g.queues, got_getQueued (.refl g) (List.suffix_refl _) .refl⟩

theorem status_get? {g : Game β} {port : Port} {frame : Int32} {o : Outcome β GetError β}
    (h : g.get? coder port frame = some o)
    : o.game.status = g.status ∨ o.game.status = .terminated := by
  have hqueued : ∀ g' : Game β, (g'.getQueued port frame).2.status = g'.status := by
    intro g'
    rcases getQueued_cases g' port frame with ⟨_, heq⟩ | ⟨_, _, _, _, _, heq⟩ <;> rw [heq]
  unfold get? at h
  split at h
  . rw [Option.some.injEq] at h
    rw [← h]
    exact Or.inl (hqueued g)
  . rw [Option.map_eq_some_iff] at h
    rcases h with ⟨o', h, rfl⟩
    show o'.game.status = _ ∨ o'.game.status = _
    unfold getRemote? at h
    dsimp at h
    split at h
    . unfold getFromStream? at h
      split at h
      . rw [Option.some.injEq] at h
        rw [← h]
        exact Or.inl rfl
      . rw [Option.map_eq_some_iff] at h
        rcases h with ⟨pumped, _, rfl⟩
        have hstatus : ∀ status, (if pumped.stopped = true then .terminated else status) = status ∨
            (if pumped.stopped = true then .terminated else status) = GameStatus.terminated := by
          intro status
          cases pumped.stopped with
          | false => exact Or.inl rfl
          | true => exact Or.inr rfl
        dsimp
        split
        . exact hstatus _
        . rw [hqueued]
          exact hstatus _
    . rw [Option.some.injEq] at h
      rw [← h]
      exact Or.inl (hqueued g)

end Game
end PadRelay
