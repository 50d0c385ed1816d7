import PadRelay.Proofs.Game.Start
import PadRelay.Proofs.Server.Layout

/-!
This module contains the proof that a game accepts the start event of its console. Such an event names
controller ports only, each of them once and at most four, and among them are all that the server has
assigned to the client, so there is no reason to refuse it.
-/

namespace PadRelay
namespace Game

variable {β : Type}

section AddQueues

variable {ports : List ConnectedPort} {queues : Queues β}

/-- Ports that can be connected: controller ports without a queue, each of them once. -/
structure Connectable (ports : List ConnectedPort) (queues : Queues β) : Prop where
  controller : ∀ connected ∈ ports, Port.ofNumber connected.port ∈ Port.controllers
  distinct : ports.Pairwise fun x y => Port.ofNumber x.port ≠ Port.ofNumber y.port
  free : ∀ connected ∈ ports, queues.contains (Port.ofNumber connected.port) = false

theorem Connectable.tail {connected : ConnectedPort}
    (h : Connectable (connected :: ports) queues) (q : FrameQueue β)
    : Connectable ports (queues.insert (Port.ofNumber connected.port) q) where
  controller other hother := h.controller other (List.mem_cons_of_mem _ hother)
  distinct := (List.pairwise_cons.1 h.distinct).2
  free other hother := by
    have hne := (List.pairwise_cons.1 h.distinct).1 other hother
    unfold SortedMap.contains
    rw [SortedMap.get?_insert_of_ne _ (Ne.symm hne)]
    exact h.free other (List.mem_cons_of_mem _ hother)

theorem addQueues_ok (localPorts : PortSet) (h : Connectable ports queues)
    : ∃ queues', addQueues localPorts ports queues = .ok queues' := by
  induction ports generalizing queues with
  | nil => exact ⟨queues, rfl⟩
  | cons connected rest ih =>
    have hcontroller : (Port.ofNumber connected.port).isController = true :=
      decide_eq_true (h.controller connected List.mem_cons_self)
    have hfree := h.free connected List.mem_cons_self
    unfold addQueues
    simp only [hcontroller, hfree, Bool.not_true, Bool.false_eq_true, ↓reduceIte]
    exact ih (h.tail _)

theorem connect_ok {g : Game β} (hsize : ports.length ≤ maxPorts) (h : Connectable ports g.queues)
    (hlocal : ∀ p, g.localPorts.contains p = true →
      ∃ connected ∈ ports, Port.ofNumber connected.port = p)
    : ∃ queues, g.connect ports = .ok queues := by
  rcases addQueues_ok g.localPorts h with ⟨queues, hadd⟩
  refine ⟨queues, ?_⟩
  have hmissing : (g.localPorts.toList.filter fun p => !queues.contains p) = [] := by
    rw [List.filter_eq_nil_iff]
    intro p hp
    rcases hlocal p (PortSet.mem_toList.1 hp) with ⟨connected, hmem, rfl⟩
    rcases (connects_addQueues hadd).connected connected hmem with ⟨q, hq⟩
    simp [SortedMap.contains, hq]
  unfold connect
  rw [if_neg (Nat.not_lt.2 hsize), hadd]
  simp only [hmissing, ↓reduceIte]

theorem contains_remotePorts {g : Game β} {p : Port}
    : g.remotePorts.contains p = true ↔
        (∃ q, g.queues.get? p = some q) ∧ g.localPorts.contains p = false := by
  have hentry : ∀ q, (g.queues.filter fun p _ => !g.localPorts.contains p).get? p = some q ↔
      g.queues.get? p = some q ∧ g.localPorts.contains p = false := by
    intro q
    rw [SortedMap.get?_eq_some_iff, SortedMap.get?_eq_some_iff]
    unfold SortedMap.filter
    simp
  unfold remotePorts
  rw [SortedMap.contains_iff, SortedMap.get?_map]
  simp only [Option.map_eq_some_iff, hentry]
  constructor
  . rintro ⟨_, q, ⟨hq, hnot⟩, _⟩
    exact ⟨⟨q, hq⟩, hnot⟩
  . rintro ⟨⟨q, hq⟩, hnot⟩
    exact ⟨(), q, ⟨hq, hnot⟩, trivial⟩

end AddQueues

/-- A game of the client that console `c` knows as its member `m`. -/
structure Enrolled (c : Console) (m : Member) (g : Game β) : Prop where
  consoleId : g.consoleId = c.id
  valid : c.id.isValid = true
  member : c.members.get? g.clientId = some m
  localPorts : g.localPorts = m.ports

/--
A running game in which console `c` and its client agree: the local ports are those of member `m`, the
remote ports those of all others, together these are the ports of the start event, and the delay of
`m` applies to the local ports only.
-/
structure Joined (c : Console) (m : Member) (g : Game β) : Prop where
  running : g.status = .running
  localPorts : g.localPorts = m.ports
  remotePorts : ∀ p, g.remotePorts.contains p = true ↔
    ∃ id m', id ≠ g.clientId ∧ c.members.get? id = some m' ∧ m'.owns p = true
  ports : ∀ start, c.startEvent.start = some start → ∀ p,
    (∃ connected ∈ start.ports, Port.ofNumber connected.port = p) ↔
      g.localPorts.contains p = true ∨ g.remotePorts.contains p = true
  delay : ∀ p, g.delayOf? p =
    if g.localPorts.contains p then some m.delay
    else if g.remotePorts.contains p then some 0
    else none

section Start

variable {c : Console} {m : Member} {g : Game β} {ports : List ConnectedPort}
variable {queues : Queues β} {p : Port}

theorem Enrolled.of_sameSeat {g' : Game β} (h : Enrolled c m g) (hseat : g.SameSeat g')
    : Enrolled c m g' where
  consoleId := hseat.consoleId.trans h.consoleId
  valid := h.valid
  member := by
    rw [hseat.clientId]
    exact h.member
  localPorts := hseat.localPorts.trans h.localPorts

theorem connectable_of_laidOut (hexclusive : c.Exclusive) (h : c.LaidOut ports)
    : Connectable ports (∅ : Queues β) where
  controller connected hmem := by
    rcases (h.owner connected).1 hmem with ⟨id, m, p, hm, hp, rfl⟩
    rw [Port.ofNumber_number]
    exact hexclusive.controller id m p hm hp
  distinct := by
    apply List.Pairwise.imp_of_mem _ h.ascending
    intro x y hx hy hlt heq
    rcases (h.owner x).1 hx with ⟨_, _, p, _, _, rfl⟩
    rcases (h.owner y).1 hy with ⟨_, _, q, _, _, rfl⟩
    rw [Port.ofNumber_number, Port.ofNumber_number] at heq
    subst heq
    exact absurd hlt Int32.lt_irrefl
  free connected _ := rfl

theorem length_le_of_laidOut (hexclusive : c.Exclusive) (h : c.LaidOut ports)
    : ports.length ≤ maxPorts := by
  rw [h.delays, List.length_map]
  have hsize := hexclusive.size_portDelays
  have := hexclusive.length_ownedPorts_le
  unfold SortedMap.size at hsize
  unfold maxPorts
  omega

/-- Who owns a port finds a queue for it after the start, and nobody finds any other queue. -/
theorem get?_of_connects (h : c.LaidOut ports) {localPorts : PortSet}
    (hconnects : Connects localPorts ports (∅ : Queues β) queues)
    : (∃ q, queues.get? p = some q) ↔
        ∃ id m, c.members.get? id = some m ∧ m.owns p = true := by
  constructor
  . rintro ⟨q, hq⟩
    rcases hconnects.origin p q hq with hempty | ⟨connected, hmem, rfl, _⟩
    . simp at hempty
    . rcases (h.owner connected).1 hmem with ⟨id, m, p, hm, hp, rfl⟩
      rw [Port.ofNumber_number]
      exact ⟨id, m, hm, hp⟩
  . rintro ⟨id, m, hm, hp⟩
    have hmem := (h.owner _).2 ⟨id, m, p, hm, hp, rfl⟩
    have hq := hconnects.connected _ hmem
    rwa [Port.ofNumber_number] at hq

theorem delay_of_connects (hexclusive : c.Exclusive) (h : c.LaidOut ports)
    (hm : c.members.get? g.clientId = some m) (hlocal : g.localPorts = m.ports)
    (hconnects : Connects g.localPorts ports (∅ : Queues β) queues) {q : FrameQueue β}
    (hq : queues.get? p = some q)
    : q.delay = if g.localPorts.contains p then m.delay else 0 := by
  rcases hconnects.origin p q hq with hempty | ⟨connected, hmem, rfl, rfl⟩
  . simp at hempty
  . rcases (h.owner connected).1 hmem with ⟨id, m', p, hm', hp, rfl⟩
    rw [Port.ofNumber_number]
    unfold newQueue
    split
    . next hown =>
      -- A port has one owner, so its delay is the one of this client.
      rw [hlocal] at hown
      have heq := hexclusive.disjoint id g.clientId m' m p hm' hm hp hown
      rw [heq, hm, Option.some.injEq] at hm'
      rw [hm']
      rfl
    . rfl

theorem Enrolled.contains_iff (henrolled : Enrolled c m g)
    : g.localPorts.contains p = true ↔ m.owns p = true := by
  rw [henrolled.localPorts]
  rfl

section Connected

variable (hlaid : c.LaidOut ports) (hconnects : Connects g.localPorts ports ∅ queues)

include hlaid hconnects

theorem remotePorts_of_connects
    : ({ g with queues, status := .running } : Game β).remotePorts.contains p = true ↔
        (∃ id m, c.members.get? id = some m ∧ m.owns p = true) ∧
          g.localPorts.contains p = false := by
  rw [contains_remotePorts]
  dsimp
  rw [get?_of_connects hlaid hconnects]

theorem delayOf?_of_connects (hexclusive : c.Exclusive) (henrolled : Enrolled c m g)
    : ({ g with queues, status := .running } : Game β).delayOf? p =
        if g.localPorts.contains p then some m.delay
        else if ({ g with queues, status := .running } : Game β).remotePorts.contains p then some 0
        else none := by
  unfold delayOf?
  dsimp
  cases hq : queues.get? p with
  | some q =>
    rw [Option.map_some,
      delay_of_connects hexclusive hlaid henrolled.member henrolled.localPorts hconnects hq]
    cases hself : g.localPorts.contains p with
    | true => rfl
    | false =>
      have := (remotePorts_of_connects hlaid hconnects).2
        ⟨(get?_of_connects hlaid hconnects).1 ⟨q, hq⟩, hself⟩
      simp [this]
  | none =>
    have hnobody : ¬ ∃ id m, c.members.get? id = some m ∧ m.owns p = true := by
      rw [← get?_of_connects hlaid hconnects, hq]
      simp
    rw [if_neg, if_neg]
    . rfl
    . exact fun hp => hnobody ((remotePorts_of_connects hlaid hconnects).1 hp).1
    . exact fun hp => hnobody ⟨_, m, henrolled.member, henrolled.contains_iff.1 hp⟩

/-- The ports of the event are those that somebody owns. -/
theorem ports_of_connects (henrolled : Enrolled c m g)
    : (∃ connected ∈ ports, Port.ofNumber connected.port = p) ↔
        g.localPorts.contains p = true ∨
          ({ g with queues, status := .running } : Game β).remotePorts.contains p = true := by
  rw [remotePorts_of_connects hlaid hconnects]
  constructor
  . rintro ⟨connected, hmem, rfl⟩
    rcases (hlaid.owner connected).1 hmem with ⟨id, m', p, hm', hp, rfl⟩
    rw [Port.ofNumber_number]
    cases hself : g.localPorts.contains p with
    | true => exact Or.inl rfl
    | false => exact Or.inr ⟨⟨id, m', hm', hp⟩, rfl⟩
  . intro hp
    have hclaimed : ∃ id m, c.members.get? id = some m ∧ m.owns p = true := by
      rcases hp with hself | ⟨hother, _⟩
      . exact ⟨g.clientId, m, henrolled.member, henrolled.contains_iff.1 hself⟩
      . exact hother
    rcases hclaimed with ⟨id, m', hm', hp⟩
    exact ⟨_, (hlaid.owner _).2 ⟨id, m', p, hm', hp, rfl⟩, Port.ofNumber_number p⟩

theorem joined_of_connects (hexclusive : c.Exclusive) (henrolled : Enrolled c m g)
    (hevent : c.startEvent = { start := some { consoleId := c.id.value, ports } })
    : Joined c m { g with queues, status := .running } where
  running := rfl
  localPorts := henrolled.localPorts
  remotePorts p := by
    rw [remotePorts_of_connects hlaid hconnects, ← Bool.not_eq_true, henrolled.contains_iff]
    constructor
    . rintro ⟨⟨id, m', hm', hp⟩, hnot⟩
      refine ⟨id, m', ?_, hm', hp⟩
      rintro rfl
      rw [henrolled.member, Option.some.injEq] at hm'
      exact hnot (hm' ▸ hp)
    . rintro ⟨id, m', hne, hm', hp⟩
      refine ⟨⟨id, m', hm', hp⟩, fun hself => hne ?_⟩
      exact hexclusive.disjoint id g.clientId m' m p hm' henrolled.member hp hself
  ports start hstart p := by
    rw [hevent, Option.some.injEq] at hstart
    subst hstart
    exact ports_of_connects (g := g) hlaid hconnects henrolled
  delay p := delayOf?_of_connects hlaid hconnects hexclusive henrolled

end Connected

theorem start_startEvent (hexclusive : c.Exclusive) (henrolled : Enrolled c m g)
    (hempty : g.queues = ∅)
    : (g.start c.startEvent).2 = .ok () ∧ Joined c m (g.start c.startEvent).1 := by
  have hlaid := hexclusive.laidOut
  generalize hports : (c.portDelays.entries.map fun e =>
    ({ port := e.1.number, delayFrames := e.2 } : ConnectedPort)) = ports at hlaid
  have hevent : c.startEvent = { start := some { consoleId := c.id.value, ports } } := by
    unfold Console.startEvent
    rw [hports]
  have hlocal : ∀ p, g.localPorts.contains p = true →
      ∃ connected ∈ ports, Port.ofNumber connected.port = p := by
    intro p hp
    rw [henrolled.localPorts] at hp
    refine ⟨_, (hlaid.owner _).2 ⟨_, m, p, henrolled.member, hp, rfl⟩, ?_⟩
    exact Port.ofNumber_number p
  have hconnectable : Connectable ports g.queues := by
    rw [hempty]
    exact connectable_of_laidOut hexclusive hlaid
  rcases connect_ok (length_le_of_laidOut hexclusive hlaid) hconnectable hlocal with
    ⟨queues, hconnect⟩
  have hconnects := connects_of_connect hconnect
  rw [hempty] at hconnects
  have hright : ¬ (c.id.value ≤ 0 ∨ c.id.value ≠ g.consoleId.value) := by
    have hvalid := henrolled.valid
    unfold ConsoleId.isValid at hvalid
    rw [decide_eq_true_eq] at hvalid
    rw [henrolled.consoleId]
    simp only [ne_eq, not_true_eq_false, or_false]
    exact Int64.not_le.2 hvalid
  have hstart : g.start c.startEvent = ({ g with queues, status := .running }, .ok ()) := by
    rw [hevent]
    unfold start
    simp only [Option.isSome_none, Bool.false_eq_true, ↓reduceIte, if_neg hright, hconnect]
  rw [hstart]
  exact ⟨rfl, joined_of_connects hlaid hconnects hexclusive henrolled hevent⟩

end Start

section Await

variable {c : Console} {m : Member} {g : Game β} {inbound : Inbound} {rest : List IncomingEvent}

/-- A wait comes back with a game that has started if the start event is the first one to read. -/
theorem awaitStart?_startEvent (hexclusive : c.Exclusive) (henrolled : Enrolled c m g)
    (hempty : g.queues = ∅) (hinbound : g.inbound = some inbound)
    (hevents : inbound.events = c.startEvent :: rest)
    : ∃ o, g.awaitStart? = some o ∧ o.result = .ok () ∧ Joined c m o.game := by
  have hread : inbound.read = .event c.startEvent { inbound with events := rest } := by
    simp [Inbound.read, hevents]
  have hstart := start_startEvent (g := { g with inbound := some { inbound with events := rest } })
    hexclusive ⟨henrolled.consoleId, henrolled.valid, henrolled.member, henrolled.localPorts⟩ hempty
  unfold awaitStart?
  rw [hinbound]
  dsimp
  rw [hread]
  exact ⟨_, rfl, hstart⟩

end Await

end Game
end PadRelay
