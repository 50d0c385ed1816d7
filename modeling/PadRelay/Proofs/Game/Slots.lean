import PadRelay.Proofs.Game.Restart
import PadRelay.Proofs.Slots

/-!
This module contains the slots of a game that has just started. Until a wait succeeds a game has no
queues, so the queues that it starts with are those of the ports in its start event, and all of these are
ports of controllers.
-/

namespace PadRelay
namespace Game

variable {β : Type}

/-- What comes of an action that waits for the start of the game. -/
def waited? (g : Game β) : Action β → Option (Outcome β ClientError Unit)
  | .awaitStart => g.awaitStart?
  | .readyAndAwaitStart answer hungUp => g.readyAndAwaitStart? answer hungUp
  | _ => none

/-- An action is a wait that ends with the start of the game. -/
def Succeeds (g : Game β) (a : Action β) : Prop :=
  ∃ o, g.waited? a = some o ∧ o.result = .ok ()

section Wait

variable {g : Game β} {a : Action β} {e : IncomingEvent}

/-- A wait without an event to read fails. -/
theorem awaitStart?_not_ok (hevents : g.unread = []) {o : Outcome β ClientError Unit}
    (h : g.awaitStart? = some o) : o.result ≠ .ok () := by
  unfold awaitStart? at h
  split at h
  . rw [Option.some.injEq] at h
    simp [← h]
  . next inbound hinbound =>
    dsimp at h
    split at h
    . simp at h
    . rw [Option.some.injEq] at h
      simp [← h]
    . next hread => simp [unread, hinbound, (read_event hread).1] at hevents

/-- A wait is decided by the event that it reads. -/
theorem waited?_of_awaited (h : g.awaited? a = some e)
    : ∃ rest hungUp o, g.waited? a = some o ∧ o.game = ((g.opened rest hungUp).start e).1 ∧
        o.result = ((g.opened rest hungUp).start e).2 := by
  cases a with
  | awaitStart =>
    rcases awaitStart?_of_head h with ⟨rest, o, ho, hstart⟩
    exact ⟨rest, g.hungUp, o, ho, hstart⟩
  | readyAndAwaitStart answer hungUp =>
    rcases awaited?_readyAndAwaitStart h with ⟨inbound, rfl, rfl, hhead⟩
    rcases awaitStart?_of_head hhead with ⟨rest, o, ho, hstart⟩
    have hwaited : g.waited? (.readyAndAwaitStart (.ok inbound)) = some { o with
        sent := some g.readyEvent
        timed := [.readyWriteStart, .readyWriteFinish] ++ o.timed } := by
      unfold waited?
      dsimp
      rw [readyAndAwaitStart?_ok, ho]
      rfl
    exact ⟨rest, false, _, hwaited, hstart⟩
  | _ => simp [awaited?] at h

theorem awaited_of_succeeds (h : g.Succeeds a) : ∃ e, g.awaited? a = some e := by
  rcases h with ⟨o, ho, hok⟩
  cases hawaited : g.awaited? a with
  | some e => exact ⟨e, rfl⟩
  | none =>
    cases a with
    | awaitStart => exact absurd hok (awaitStart?_not_ok (List.head?_eq_none_iff.1 hawaited) ho)
    | readyAndAwaitStart answer hungUp =>
      unfold waited? at ho
      dsimp at ho
      cases answer with
      | error failure =>
        simp only [readyAndAwaitStart?, ready, Option.some.injEq] at ho
        simp [← ho] at hok
      | ok inbound =>
        cases hungUp with
        | true =>
          rw [readyAndAwaitStart?_hungUp, ready_hungUp, Option.some.injEq] at ho
          simp [← ho] at hok
        | false =>
          rw [readyAndAwaitStart?_ok, Option.map_eq_some_iff] at ho
          rcases ho with ⟨o', ho', rfl⟩
          have hevents : (g.opened inbound false).unread = [] := List.head?_eq_none_iff.1 hawaited
          exact False.elim (awaitStart?_not_ok hevents ho' hok)
    | _ => simp [waited?] at ho

end Wait

section Started

variable [Inhabited β] {g : Game β} {a : Action β}

theorem act_of_waited (coder : Coder β) {o : Outcome β ClientError Unit}
    (h : g.waited? a = some o) : g.act coder a = o.game := by
  cases a with
  | awaitStart => exact congrArg g.afterCall h
  | readyAndAwaitStart answer hungUp => exact congrArg g.afterCall h
  | _ => simp [waited?] at h

/-- A wait that reads an event either starts the game or leaves it without queues. -/
theorem waited?_cases (coder : Coder β) (hempty : g.queues = ∅) {e : IncomingEvent}
    (h : g.awaited? a = some e)
    : (g.Succeeds a ∧ ∃ start, Accepts g.consoleId g.localPorts e start ∧
        Begins g.localPorts start.ports (g.act coder a)) ∨
      (¬ g.Succeeds a ∧ (g.act coder a).queues = ∅) := by
  rcases waited?_of_awaited h with ⟨rest, hungUp, o, ho, hgame, hresult⟩
  rw [act_of_waited coder ho]
  rcases start_accepts_or_refuses (g := g.opened rest hungUp) (e := e) hempty with
    ⟨hok, start, haccepts, hbegins⟩ | ⟨hnot, _, hqueues, _⟩
  . rw [← hgame] at hbegins
    exact Or.inl ⟨⟨o, ho, hresult.trans hok⟩, start, haccepts, hbegins⟩
  . rw [← hgame] at hqueues
    refine Or.inr ⟨?_, hqueues⟩
    rintro ⟨o', ho', hok⟩
    rw [ho, Option.some.injEq] at ho'
    rw [← ho', hresult] at hok
    exact hnot hok

theorem queues_act_of_not_succeeds (coder : Coder β) (hempty : g.queues = ∅) (h : ¬ g.Succeeds a)
    : (g.act coder a).queues = ∅ := by
  cases hawaited : g.awaited? a with
  | none => exact (carries_act coder hawaited).2.empty hempty
  | some e =>
    rcases waited?_cases coder hempty hawaited with ⟨hsucceeds, _⟩ | ⟨_, hqueues⟩
    . exact absurd hsucceeds h
    . exact hqueues

theorem begins_of_succeeds (coder : Coder β) (hempty : g.queues = ∅) (h : g.Succeeds a)
    : ∃ e start, g.awaited? a = some e ∧ Accepts g.consoleId g.localPorts e start ∧
        Begins g.localPorts start.ports (g.act coder a) := by
  rcases awaited_of_succeeds h with ⟨e, he⟩
  rcases waited?_cases coder hempty he with ⟨_, start, haccepts, hbegins⟩ | ⟨hnot, _⟩
  . exact ⟨e, start, he, haccepts, hbegins⟩
  . exact absurd h hnot

/-- No wait succeeds during some actions. -/
def Unstarted (coder : Coder β) : Game β → List (Action β) → Prop
  | _, [] => True
  | g, a :: rest => ¬ g.Succeeds a ∧ Unstarted coder (g.act coder a) rest

theorem queues_run_of_unstarted {coder : Coder β} {actions : List (Action β)} (hempty : g.queues = ∅)
    (h : Unstarted coder g actions) : (g.run coder actions).queues = ∅ := by
  induction actions generalizing g with
  | nil => exact hempty
  | cons a rest ih => exact ih (queues_act_of_not_succeeds coder hempty h.1) h.2

end Started

section Slots

variable {localPorts : PortSet} {ports : List ConnectedPort} {g : Game β}

theorem Begins.contains_remotePorts (h : Begins localPorts ports g) (hlocal : g.localPorts = localPorts)
    {p : Port}
    : g.remotePorts.contains p = true ↔
        (∃ connected ∈ ports, Port.ofNumber connected.port = p) ∧ localPorts.contains p = false := by
  rw [Game.contains_remotePorts, hlocal]
  constructor
  . rintro ⟨⟨q, hq⟩, hnot⟩
    exact ⟨h.only p q hq, hnot⟩
  . rintro ⟨⟨connected, hmem, rfl⟩, hnot⟩
    exact ⟨⟨_, h.queue connected hmem⟩, hnot⟩

theorem Begins.delayOf? (h : Begins localPorts ports g) {connected : ConnectedPort}
    (hmem : connected ∈ ports)
    : g.delayOf? (Port.ofNumber connected.port)
        =
      some (if localPorts.contains (Port.ofNumber connected.port) then connected.delayFrames else 0) := by
  unfold Game.delayOf?
  rw [h.queue connected hmem]
  unfold newQueue
  split <;> rfl

theorem Begins.disjoint (h : Begins localPorts ports g) (hlocal : g.localPorts = localPorts) (p : Port)
    (hp : g.localPorts.contains p = true) : g.remotePorts.contains p = false := by
  rw [Bool.eq_false_iff, ne_eq, h.contains_remotePorts hlocal, ← hlocal, hp]
  simp

theorem Begins.isController (h : Begins localPorts ports g) (hlocal : g.localPorts = localPorts)
    (hplayable : Playable localPorts ports) (p : Port)
    (hp : g.localPorts.contains p = true ∨ g.remotePorts.contains p = true)
    : p.isController = true := by
  have hconnected : ∃ connected ∈ ports, Port.ofNumber connected.port = p := by
    cases hp with
    | inl hp => exact hplayable.covering p (PortSet.mem_toList.2 (hlocal ▸ hp))
    | inr hp => exact ((h.contains_remotePorts hlocal).1 hp).1
  rcases hconnected with ⟨connected, hmem, rfl⟩
  exact decide_eq_true (hplayable.controller connected hmem)

/-- The slots of a game that has just started. -/
structure Seats (localPorts : PortSet) (ports : List ConnectedPort) (slots : Vector Slot 4) :
    Prop where
  present : ∀ i : Fin 4, (slots.get i).present = true ↔
    ∃ connected ∈ ports, (Port.ofNumber connected.port).slot? = some i
  connected : ∀ connected ∈ ports, ∃ i : Fin 4, ∃ channel,
    (Port.ofNumber connected.port).slot? = some i ∧
    slots.get i =
      if localPorts.contains (Port.ofNumber connected.port) then
        { present := true, delay := connected.delayFrames, channel := some channel }
      else { present := true, remote := true }

theorem Begins.seats (h : Begins localPorts ports g) (hlocal : g.localPorts = localPorts)
    (hplayable : Playable localPorts ports) {channels : List Nat} {slots : Vector Slot 4}
    (hassigned : Assigned channels g.localPorts g.remotePorts (fun p => (g.delayOf? p).getD 0) slots)
    : Seats localPorts ports slots := by
  have hconnected : ∀ connected ∈ ports, ∃ i : Fin 4, ∃ channel,
      (Port.ofNumber connected.port).slot? = some i ∧
      slots.get i =
        if localPorts.contains (Port.ofNumber connected.port) then
          { present := true, delay := connected.delayFrames, channel := some channel }
        else { present := true, remote := true } := by
    intro connected hmem
    have hdelay := h.delayOf? hmem
    split
    . next hlocal' =>
      rw [if_pos hlocal'] at hdelay
      rw [← hlocal, ← PortSet.mem_toList, List.mem_iff_getElem?] at hlocal'
      rcases hlocal' with ⟨k, hk⟩
      rcases hassigned.localPort k _ hk with ⟨i, channel, hi, _, hslot⟩
      rw [localSlot, hdelay] at hslot
      exact ⟨i, channel, hi, hslot⟩
    . next hremote =>
      rw [if_neg hremote] at hdelay
      have hremote' := (h.contains_remotePorts hlocal).2
        ⟨⟨connected, hmem, rfl⟩, Bool.eq_false_iff.2 hremote⟩
      rcases hassigned.remotePort _ hremote' with ⟨i, hi, hslot⟩
      rw [remoteSlot, hdelay] at hslot
      exact ⟨i, 0, hi, hslot⟩
  refine ⟨?_, hconnected⟩
  intro i
  constructor
  . intro hpresent
    by_contra hnone
    have hempty := hassigned.other i ?_
    . simp [hempty] at hpresent
    . intro p hp
      have hfree : ¬ ∃ connected ∈ ports, Port.ofNumber connected.port = p := by
        rintro ⟨connected, hmem, rfl⟩
        exact hnone ⟨connected, hmem, hp⟩
      constructor
      . rw [hlocal, Bool.eq_false_iff]
        exact fun hp' => hfree (hplayable.covering p (PortSet.mem_toList.2 hp'))
      . rw [Bool.eq_false_iff, ne_eq, h.contains_remotePorts hlocal]
        exact fun hp' => hfree hp'.1
  . rintro ⟨connected, hmem, hi⟩
    rcases hconnected connected hmem with ⟨j, _, hj, hslot⟩
    obtain rfl : i = j := Option.some.inj (hi.symm.trans hj)
    rw [hslot]
    split <;> rfl

end Slots

/--
The slots are what the channels, the ports and their delays determine, whatever the order of the
channels. As soon as a wait has succeeded no port is without a slot.
-/
theorem slots_assigned [Inhabited β] (coder : Coder β)
    : (∀ (channels : List Nat) (localPorts remotePorts : PortSet) (delay? : Port → Option Int32),
        (∀ p, localPorts.contains p = true → remotePorts.contains p = false) →
        Assignment channels localPorts remotePorts (fun p => (delay? p).getD 0)
            (assignSlots channels localPorts remotePorts delay?) ∧
          ∀ channels' : List Nat, channels'.Perm channels →
            assignSlots channels' localPorts remotePorts delay?
              =
            assignSlots channels localPorts remotePorts delay?) ∧
        ∀ {consoleId clientId} {ports : List Port} {g : Game β},
          create? consoleId clientId ports = .ok g → ∀ (before : List (Action β)) (a : Action β),
          Unstarted coder g before → (g.run coder before).Succeeds a →
          let g' := g.run coder (before ++ [a])
          ∃ e start, (g.run coder before).awaited? a = some e ∧
            Accepts consoleId (.ofList ports) e start ∧
            ∀ channels : List Nat, (∀ p, g'.slots channels ≠ .error (.invalidPort p)) ∧
              (channels.length = g'.localPorts.size → ∃ slots, g'.slots channels = .ok slots ∧
                Seats (.ofList ports) start.ports slots) := by
  refine ⟨?_, ?_⟩
  . intro channels localPorts remotePorts delay? hdisjoint
    exact ⟨assignment_assignSlots delay? hdisjoint,
      fun channels' hperm => assignSlots_of_perm hperm localPorts remotePorts delay?⟩
  . intro consoleId clientId ports g hcreate before a hunstarted hsucceeds g'
    have hnew := create?_eq_ok hcreate
    have hempty : g.queues = ∅ := by rw [hnew]
    have hseat := sameSeat_run coder g before
    rcases begins_of_succeeds coder (queues_run_of_unstarted hempty hunstarted) hsucceeds with
      ⟨e, start, hawaited, haccepts, hbegins⟩
    have hg' : (g.run coder before).act coder a = g' := by
      simp [g', run]
    have hports : g'.localPorts = .ofList ports := by
      rw [(sameSeat_run coder g _).localPorts, hnew]
    rw [hg', hseat.localPorts, hnew] at hbegins
    rw [hseat.localPorts, hseat.consoleId, hnew] at haccepts
    refine ⟨e, start, hawaited, haccepts, ?_⟩
    intro channels
    have hassignment : Assignment channels g'.localPorts g'.remotePorts _ (g'.slots channels) :=
      assignment_assignSlots g'.delayOf? (hbegins.disjoint hports)
    have hvalid := hbegins.isController hports haccepts.playable
    constructor
    . intro p herror
      rcases (hassignment.invalid p).1 herror with ⟨_, hp | ⟨_, hp⟩⟩
      . simpa [hp.invalid] using hvalid p (Or.inl hp.mem)
      . simpa [hp.invalid] using hvalid p (Or.inr hp.mem)
    . intro hlength
      rcases hassignment.filled hlength hvalid _ (List.mergeSort_perm channels _)
        (List.pairwise_mergeSort' _ channels) with ⟨slots, hok, hassigned, _⟩
      exact ⟨slots, hok, hbegins.seats hports haccepts.playable hassigned⟩

/-- Ports 1 and 3 wait for a start event that is delivered after a wait has failed. -/
def latecomer : Game UInt32 :=
  { consoleId := ⟨1⟩, clientId := ⟨1⟩, localPorts := .ofList [.three, .one] }

def lateWaits : List (Action UInt32) :=
  [.awaitStart, .ready (.ok { events := [invitation [⟨3, 2⟩, ⟨1, 2⟩, ⟨4, 5⟩]] })]

theorem slots_assigned_latecomer
    : let g := latecomer.run .word (lateWaits ++ [.awaitStart])
      g.slots [7] = .error (.channelCountMismatch 2 1) ∧
        ∃ slots, g.slots [7, 4] = .ok slots ∧
          Seats (.ofList [.three, .one]) [⟨3, 2⟩, ⟨1, 2⟩, ⟨4, 5⟩] slots ∧
          slots.toList.filterMap (·.channel) = [4, 7] := by
  intro g
  rcases slots_assigned Coder.word with ⟨hassigned, hstarted⟩
  have hunstarted : Unstarted .word latecomer lateWaits := by
    refine ⟨?_, ?_, trivial⟩
    . rintro ⟨o, ho, hok⟩
      obtain rfl := Option.some.inj ho
      simp at hok
    . rintro ⟨o, ho, _⟩
      simp [waited?] at ho
  have hsucceeds : (latecomer.run .word lateWaits).Succeeds .awaitStart := ⟨_, rfl, rfl⟩
  have hdisjoint : ∀ p, g.localPorts.contains p = true → g.remotePorts.contains p = false := by
    intro p
    cases p <;> decide +kernel
  have hvalid : ∀ p, g.localPorts.contains p = true ∨ g.remotePorts.contains p = true →
      p.isController = true := by
    intro p
    cases p <;> decide +kernel
  have hassigned := fun channels => hassigned channels g.localPorts g.remotePorts g.delayOf? hdisjoint
  have hsize : g.localPorts.size = 2 := by decide +kernel
  have hcreate : create? ⟨1⟩ ⟨1⟩ [.three, .one] = .ok latecomer := by rfl
  rcases hstarted hcreate lateWaits .awaitStart hunstarted hsucceeds with ⟨e, start, he, haccepts, hslots⟩
  constructor
  . exact ((hassigned [7]).1.mismatch 2 1).2 ⟨by simp [hsize], hsize.symm, rfl⟩
  . rcases (hslots [7, 4]).2 hsize.symm with ⟨slots, hok, hseats⟩
    obtain rfl : invitation [⟨3, 2⟩, ⟨1, 2⟩, ⟨4, 5⟩] = e := Option.some.inj he
    obtain rfl : ⟨1, [⟨3, 2⟩, ⟨1, 2⟩, ⟨4, 5⟩]⟩ = start := Option.some.inj haccepts.starts
    refine ⟨slots, hok, hseats, ?_⟩
    rcases (hassigned [7, 4]).1.filled hsize.symm hvalid [4, 7] (by decide) (by decide) with
      ⟨slots', hok', _, hchannels⟩
    obtain rfl : slots = slots' := Except.ok.inj (hok.symm.trans hok')
    exact hchannels

end Game
end PadRelay
