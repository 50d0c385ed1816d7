import Mathlib.Data.List.Nodup
import PadRelay.Proofs.Game.Joining

/-!
This module contains the exact condition under which a game accepts the first event that it reads. The
ports of the event are checked one after the other while the queues are built, so that a port can be
refused when queues of others exist already. The condition does not mention any order, and a game that
refuses an event has no queues, wherever the mistake was.
-/

namespace PadRelay
namespace Game

variable {β : Type}

/-- The ports of a start event that an emulator with the given local ports accepts. -/
structure Playable (localPorts : PortSet) (ports : List ConnectedPort) : Prop where
  size : ports.length ≤ maxPorts
  controller : ∀ connected ∈ ports, Port.ofNumber connected.port ∈ Port.controllers
  distinct : ports.Pairwise fun x y => Port.ofNumber x.port ≠ Port.ofNumber y.port
  covering : ∀ p ∈ localPorts.toList, ∃ connected ∈ ports, Port.ofNumber connected.port = p

instance {localPorts : PortSet} {ports : List ConnectedPort} : Decidable (Playable localPorts ports) :=
  decidable_of_iff
    (ports.length ≤ maxPorts ∧
      (∀ connected ∈ ports, Port.ofNumber connected.port ∈ Port.controllers) ∧
      (ports.Pairwise fun x y => Port.ofNumber x.port ≠ Port.ofNumber y.port) ∧
      ∀ p ∈ localPorts.toList, ∃ connected ∈ ports, Port.ofNumber connected.port = p)
    ⟨fun h => ⟨h.1, h.2.1, h.2.2.1, h.2.2.2⟩,
      fun h => ⟨h.size, h.controller, h.distinct, h.covering⟩⟩

/-- The events that start a game of an emulator with the given local ports. -/
structure Accepts (consoleId : ConsoleId) (localPorts : PortSet) (e : IncomingEvent)
    (start : StartGame) : Prop where
  goesOn : e.stop = none
  starts : e.start = some start
  positive : 0 < start.consoleId
  own : start.consoleId = consoleId.value
  playable : Playable localPorts start.ports

/-- What a game is after it has accepted a start event. -/
structure Begins (localPorts : PortSet) (ports : List ConnectedPort) (g : Game β) : Prop where
  running : g.status = .running
  queue : ∀ connected ∈ ports,
    g.queues.get? (Port.ofNumber connected.port)
      =
    some (newQueue localPorts (Port.ofNumber connected.port) connected.delayFrames)
  only : ∀ p q, g.queues.get? p = some q →
    ∃ connected ∈ ports, Port.ofNumber connected.port = p
  size : g.queues.size = ports.length

section Connect

variable {localPorts : PortSet} {ports : List ConnectedPort} {queues queues' : Queues β}

theorem connectable_of_addQueues (h : addQueues localPorts ports queues = .ok queues')
    : Connectable ports queues := by
  induction ports generalizing queues with
  | nil => exact ⟨by simp, List.Pairwise.nil, by simp⟩
  | cons connected rest ih =>
    unfold addQueues at h
    dsimp at h
    split at h
    . simp at h
    . next hcontroller =>
      split at h
      . simp at h
      . next hfree =>
        have ih := ih h
        rw [Bool.not_eq_true, Bool.not_eq_false', Port.isController, decide_eq_true_eq]
          at hcontroller
        -- The port has a queue when the others are added, so none of these is the same port.
        have hne : ∀ other ∈ rest, Port.ofNumber connected.port ≠ Port.ofNumber other.port := by
          intro other hother heq
          have := ih.free other hother
          simp [SortedMap.contains, heq] at this
        constructor
        . intro other hother
          cases hother with
          | head => exact hcontroller
          | tail _ hother => exact ih.controller other hother
        . exact List.pairwise_cons.2 ⟨hne, ih.distinct⟩
        . intro other hother
          cases hother with
          | head => exact Bool.eq_false_iff.2 hfree
          | tail _ hother =>
            have := ih.free other hother
            unfold SortedMap.contains at this ⊢
            rwa [SortedMap.get?_insert_of_ne _ (Ne.symm (hne other hother))] at this

theorem size_addQueues (h : addQueues localPorts ports queues = .ok queues')
    : queues'.size = queues.size + ports.length := by
  induction ports generalizing queues with
  | nil =>
    simp only [addQueues, Except.ok.injEq] at h
    rw [h]
    rfl
  | cons connected rest ih =>
    unfold addQueues at h
    dsimp at h
    split at h
    . simp at h
    . split at h
      . simp at h
      . next hfree =>
        have hnone : queues.get? (Port.ofNumber connected.port) = none := by
          simpa [SortedMap.contains] using hfree
        rw [ih h, SortedMap.size_insert_of_get? _ hnone, List.length_cons]
        omega

theorem connectable_empty_iff
    : Connectable ports (∅ : Queues β) ↔
        (∀ connected ∈ ports, Port.ofNumber connected.port ∈ Port.controllers) ∧
          ports.Pairwise fun x y => Port.ofNumber x.port ≠ Port.ofNumber y.port :=
  ⟨fun h => ⟨h.controller, h.distinct⟩, fun h => ⟨h.1, h.2, fun _ _ => rfl⟩⟩

variable {g : Game β}

theorem addQueues_of_connect (h : g.connect ports = .ok queues')
    : ports.length ≤ maxPorts ∧ addQueues g.localPorts ports g.queues = .ok queues' ∧
        ∀ p ∈ g.localPorts.toList, queues'.contains p = true := by
  unfold connect at h
  split at h
  . simp at h
  . next hsize =>
    split at h
    . simp at h
    . next queues hadd =>
      dsimp at h
      split at h
      . next hmissing =>
        rw [Except.ok.injEq] at h
        subst h
        refine ⟨Nat.not_lt.1 hsize, hadd, ?_⟩
        intro p hp
        have := List.filter_eq_nil_iff.1 hmissing p hp
        simpa using this
      . simp at h

theorem playable_of_connect (hempty : g.queues = ∅) (h : g.connect ports = .ok queues')
    : Playable g.localPorts ports := by
  rcases addQueues_of_connect h with ⟨hsize, hadd, hcovered⟩
  rw [hempty] at hadd
  rcases connectable_empty_iff.1 (connectable_of_addQueues hadd) with ⟨hcontroller, hdistinct⟩
  refine ⟨hsize, hcontroller, hdistinct, ?_⟩
  intro p hp
  rcases SortedMap.contains_iff.1 (hcovered p hp) with ⟨q, hq⟩
  rcases (connects_addQueues hadd).origin p q hq with hnone | ⟨connected, hmem, hport, _⟩
  . simp at hnone
  . exact ⟨connected, hmem, hport⟩

theorem connect_ok_iff (hempty : g.queues = ∅)
    : (∃ queues', g.connect ports = .ok queues') ↔ Playable g.localPorts ports := by
  constructor
  . rintro ⟨queues', h⟩
    exact playable_of_connect hempty h
  . intro h
    have hconnectable : Connectable ports g.queues := by
      rw [hempty]
      exact connectable_empty_iff.2 ⟨h.controller, h.distinct⟩
    exact connect_ok h.size hconnectable fun p hp => h.covering p (PortSet.mem_toList.2 hp)

theorem Playable.eq_of_port {x y : ConnectedPort} (h : Playable localPorts ports) (hx : x ∈ ports)
    (hy : y ∈ ports) (hport : Port.ofNumber x.port = Port.ofNumber y.port)
    : x = y := by
  have hnodup : (ports.map fun connected => Port.ofNumber connected.port).Nodup :=
    List.pairwise_map.2 h.distinct
  exact List.inj_on_of_nodup_map hnodup hx hy hport

theorem begins_of_connect (hempty : g.queues = ∅) (h : g.connect ports = .ok queues')
    : Begins g.localPorts ports { g with queues := queues', status := .running } := by
  have hplayable := playable_of_connect hempty h
  have hadd := (addQueues_of_connect h).2.1
  rw [hempty] at hadd
  have hconnects := connects_addQueues hadd
  have horigin : ∀ p q, queues'.get? p = some q → ∃ connected ∈ ports,
      Port.ofNumber connected.port = p ∧ q = newQueue g.localPorts p connected.delayFrames := by
    intro p q hq
    rcases hconnects.origin p q hq with hnone | horigin
    . simp at hnone
    . exact horigin
  constructor
  . rfl
  . intro connected hmem
    rcases hconnects.connected connected hmem with ⟨q, hq⟩
    rcases horigin _ q hq with ⟨other, hother, hport, rfl⟩
    rw [hplayable.eq_of_port hother hmem hport] at hq
    exact hq
  . intro p q hq
    rcases horigin p q hq with ⟨connected, hmem, hport, _⟩
    exact ⟨connected, hmem, hport⟩
  . have hsize := size_addQueues hadd
    have hzero : (∅ : Queues β).size = 0 := rfl
    rw [hzero, Nat.zero_add] at hsize
    exact hsize

end Connect

section Start

variable {g : Game β} {e : IncomingEvent}

/-- Every event is either accepted, or it leaves no queue and starts nothing. -/
theorem start_accepts_or_refuses (hempty : g.queues = ∅)
    : ((g.start e).2 = .ok () ∧ ∃ start, Accepts g.consoleId g.localPorts e start ∧
        Begins g.localPorts start.ports (g.start e).1) ∨
      ((g.start e).2 ≠ .ok () ∧ (¬ ∃ start, Accepts g.consoleId g.localPorts e start) ∧
        (g.start e).1.queues = ∅ ∧
        (g.start e).1.status = if e.stop.isSome then .terminated else g.status) := by
  unfold Game.start
  split
  . next hstop =>
    refine Or.inr ⟨by simp, ?_, hempty, rfl⟩
    rintro ⟨start, h⟩
    simp [h.goesOn] at hstop
  . next hstop =>
    split
    . next hnone =>
      refine Or.inr ⟨by simp, ?_, hempty, rfl⟩
      rintro ⟨start, h⟩
      simp [h.starts] at hnone
    . next start hstart =>
      split
      . next hother =>
        refine Or.inr ⟨by simp, ?_, hempty, rfl⟩
        rintro ⟨start', h⟩
        obtain rfl : start = start' := by simpa [hstart] using h.starts
        cases hother with
        | inl hle => exact absurd h.positive (Int64.not_lt.2 hle)
        | inr hne => exact hne h.own
      . next hown =>
        rw [not_or, Int64.not_le, ne_eq, Classical.not_not] at hown
        cases hconnect : g.connect start.ports with
        | error fault =>
          refine Or.inr ⟨by simp, ?_, rfl, rfl⟩
          rintro ⟨start', h⟩
          obtain rfl : start = start' := by simpa [hstart] using h.starts
          rcases (connect_ok_iff hempty).2 h.playable with ⟨queues, hok⟩
          simp [hconnect] at hok
        | ok queues =>
          refine Or.inl ⟨rfl, start, ?_, begins_of_connect hempty hconnect⟩
          exact ⟨by simpa using hstop, hstart, hown.1, hown.2, playable_of_connect hempty hconnect⟩

end Start

/--
A wait comes back as soon as there is something to read. The game starts if and only if that is an event
with the right ports for it, and then it has one queue for each of them.
-/
theorem start_acceptance {g : Game β} {inbound : Inbound} (hstatus : g.status = .notYetStarted)
    (hinbound : g.inbound = some inbound) (hempty : g.queues = ∅)
    : (g.awaitStart? = none ↔ inbound.events = [] ∧ inbound.ending = none) ∧
        ∀ o, g.awaitStart? = some o →
          (o.result = .ok () ↔ ∃ e start, inbound.events.head? = some e ∧
            Accepts g.consoleId g.localPorts e start) ∧
          (∀ e start, inbound.events.head? = some e → Accepts g.consoleId g.localPorts e start →
            Begins g.localPorts start.ports o.game) ∧
          (o.result ≠ .ok () → o.game.queues = ∅ ∧
            o.game.status
              =
            if inbound.events.head?.any fun e => e.stop.isSome then .terminated
            else .notYetStarted) := by
  unfold awaitStart?
  rw [hinbound]
  dsimp
  cases hevents : inbound.events with
  | nil =>
    cases hending : inbound.ending with
    | none => simp [Inbound.read, hevents, hending]
    | some ending =>
      simp only [Inbound.read, hevents, hending]
      refine ⟨by simp, ?_⟩
      intro o ho
      rw [Option.some.injEq] at ho
      subst ho
      exact ⟨by simp, by simp, fun _ => ⟨hempty, by simpa using hstatus⟩⟩
  | cons e rest =>
    simp only [Inbound.read, hevents]
    refine ⟨by simp, ?_⟩
    intro o ho
    rw [Option.some.injEq] at ho
    subst ho
    simp only [List.head?_cons, Option.some.injEq, Option.any_some]
    rcases start_accepts_or_refuses (e := e)
      (g := { g with inbound := some { inbound with events := rest } }) hempty with
      ⟨hok, start, haccepts, hbegins⟩ | ⟨hnot, hrefuses, hqueues, hstopped⟩
    . refine ⟨⟨fun _ => ⟨e, start, rfl, haccepts⟩, fun _ => hok⟩, ?_, fun hnot => absurd hok hnot⟩
      rintro _ start' rfl haccepts'
      obtain rfl : start = start' := by simpa [haccepts.starts] using haccepts'.starts
      exact hbegins
    . refine ⟨⟨fun hok => absurd hok hnot, ?_⟩, ?_, fun _ => ?_⟩
      . rintro ⟨_, start, rfl, haccepts⟩
        exact absurd ⟨start, haccepts⟩ hrefuses
      . rintro _ start rfl haccepts
        exact absurd ⟨start, haccepts⟩ hrefuses
      . rw [hstopped, ← hstatus]
        exact ⟨hqueues, rfl⟩

def invitation (ports : List ConnectedPort) : IncomingEvent :=
  { start := some { consoleId := 1, ports := ports } }

/-- A game of port 1 that has received a start event with the given ports. -/
def invited (ports : List ConnectedPort) : Game UInt32 :=
  { consoleId := ⟨1⟩, clientId := ⟨1⟩, localPorts := .ofList [.one]
    inbound := some { events := [invitation ports] } }

/--
Port 3 joins the game of port 1. If it is named twice nothing starts, although two queues exist by then,
and nothing starts without port 1 either.
-/
theorem start_acceptance_duo
    : (∃ o, (invited [⟨1, 2⟩, ⟨3, 0⟩]).awaitStart? = some o ∧ o.result = .ok () ∧
        o.game.status = .running ∧ o.game.queues.get? .one = some (.forLocal 2) ∧
        o.game.queues.get? .three = some (.forRemote 0) ∧ o.game.queues.size = 2) ∧
      (∀ ports ∈ [[⟨1, 2⟩, ⟨3, 0⟩, ⟨3, 0⟩], [⟨3, 0⟩]], ∀ o, (invited ports).awaitStart? = some o →
        o.result ≠ .ok () ∧ o.game.queues = ∅ ∧ o.game.status = .notYetStarted) := by
  constructor
  . have h := start_acceptance (g := invited [⟨1, 2⟩, ⟨3, 0⟩]) rfl rfl rfl
    cases ho : (invited [⟨1, 2⟩, ⟨3, 0⟩]).awaitStart? with
    | none => simp [h.1] at ho
    | some o =>
      have haccepts : Accepts ⟨1⟩ (.ofList [.one]) (invitation [⟨1, 2⟩, ⟨3, 0⟩]) ⟨1, _⟩ :=
        ⟨rfl, rfl, by decide, rfl, by decide⟩
      rcases h.2 o ho with ⟨hok, hbegins, _⟩
      have hbegins := hbegins _ _ rfl haccepts
      refine ⟨o, rfl, hok.2 ⟨_, _, rfl, haccepts⟩, hbegins.running, ?_, ?_, hbegins.size⟩
      . exact hbegins.queue ⟨1, 2⟩ (by simp)
      . exact hbegins.queue ⟨3, 0⟩ (by simp)
  . have hunplayable : ∀ ports ∈ [[⟨1, 2⟩, ⟨3, 0⟩, ⟨3, 0⟩], [⟨3, 0⟩]],
        ¬ Playable (.ofList [.one]) ports := by
      decide
    intro ports hports o ho
    rcases (start_acceptance (g := invited ports) rfl rfl rfl).2 o ho with ⟨hok, _, hrefused⟩
    have hnot : o.result ≠ .ok () := by
      rw [ne_eq, hok]
      rintro ⟨e, start, heq, haccepts⟩
      obtain rfl : invitation ports = e := by simpa [invited] using heq
      obtain rfl : ⟨1, ports⟩ = start := by simpa [invitation] using haccepts.starts
      exact hunplayable ports hports haccepts.playable
    exact ⟨hnot, hrefused hnot⟩

end Game
end PadRelay
