import PadRelay.Game.Start
import PadRelay.Proofs.SortedMap

/-!
This module contains the theory of the start of a game: which queues there are afterwards, and which
events are left to read.
-/

namespace PadRelay
namespace Game

variable {β : Type}

def unread (g : Game β) : List IncomingEvent :=
  match g.inbound with
  | none => []
  | some inbound => inbound.events

/-- Two games are about the same client of the same console. -/
structure SameSeat (g g' : Game β) : Prop where
  consoleId : g'.consoleId = g.consoleId
  clientId : g'.clientId = g.clientId
  localPorts : g'.localPorts = g.localPorts

theorem SameSeat.refl (g : Game β) : g.SameSeat g := ⟨rfl, rfl, rfl⟩

theorem SameSeat.trans {g g' g'' : Game β} (h : g.SameSeat g') (h' : g'.SameSeat g'')
    : g.SameSeat g'' where
  consoleId := h'.consoleId.trans h.consoleId
  clientId := h'.clientId.trans h.clientId
  localPorts := h'.localPorts.trans h.localPorts

def newQueue (localPorts : PortSet) (port : Port) (delay : Int32) : FrameQueue β :=
  if localPorts.contains port then .forLocal delay else .forRemote delay

/-- The queues of a game after some ports were connected. -/
structure Connects (localPorts : PortSet) (ports : List ConnectedPort)
    (queues queues' : Queues β) : Prop where
  origin : ∀ p q, queues'.get? p = some q → queues.get? p = some q ∨
    ∃ connected ∈ ports, Port.ofNumber connected.port = p ∧
      q = newQueue localPorts p connected.delayFrames
  connected : ∀ connected ∈ ports, ∃ q, queues'.get? (Port.ofNumber connected.port) = some q
  kept : ∀ p q, queues.get? p = some q → queues'.get? p = some q

theorem connects_addQueues {localPorts : PortSet} {ports : List ConnectedPort}
    {queues queues' : Queues β} (h : addQueues localPorts ports queues = .ok queues')
    : Connects localPorts ports queues queues' := by
  induction ports generalizing queues with
  | nil =>
    simp only [addQueues, Except.ok.injEq] at h
    subst h
    exact ⟨fun _ _ hq => Or.inl hq, by simp, fun _ _ hq => hq⟩
  | cons connected rest ih =>
    unfold addQueues at h
    dsimp at h
    split at h
    . simp at h
    . split at h
      . simp at h
      . next hnew =>
        have ih := ih h
        have hnew : queues.get? (Port.ofNumber connected.port) = none := by
          simpa [SortedMap.contains] using hnew
        constructor
        . intro p q hq
          rcases ih.origin p q hq with hq | ⟨connected', hmem, hport, hq⟩
          . rw [SortedMap.get?_insert] at hq
            split at hq
            . next heq =>
              rw [Option.some.injEq] at hq
              refine Or.inr ⟨connected, List.mem_cons_self, heq.symm, ?_⟩
              rw [← hq, heq]
              rfl
            . exact Or.inl hq
          . exact Or.inr ⟨connected', List.mem_cons_of_mem _ hmem, hport, hq⟩
        . intro connected' hmem
          cases List.mem_cons.1 hmem with
          | inl heq =>
            rw [heq]
            exact ⟨_, ih.kept _ _ (SortedMap.get?_insert_self _ _ _)⟩
          | inr hmem => exact ih.connected connected' hmem
        . intro p q hq
          apply ih.kept
          rw [SortedMap.get?_insert_of_ne _ _ _, hq]
          intro heq
          rw [heq, hnew] at hq
          simp at hq

theorem connects_of_connect {g : Game β} {ports : List ConnectedPort} {queues : Queues β}
    (h : g.connect ports = .ok queues)
    : Connects g.localPorts ports g.queues queues := by
  unfold connect at h
  split at h
  . simp at h
  . split at h
    . simp at h
    . next queues' hadd =>
      dsimp at h
      split at h
      . rw [Except.ok.injEq] at h
        rw [← h]
        exact connects_addQueues hadd
      . simp at h

theorem start_cases (g : Game β) (e : IncomingEvent)
    : g.SameSeat (g.start e).1 ∧ (g.start e).1.inbound = g.inbound ∧
        ((g.start e).1.queues = g.queues ∨
          ∃ start, e.start = some start ∧
            ((g.start e).1.queues = ∅ ∨
              Connects g.localPorts start.ports g.queues (g.start e).1.queues)) := by
  unfold start
  split
  . exact ⟨⟨rfl, rfl, rfl⟩, rfl, Or.inl rfl⟩
  . split
    . exact ⟨.refl g, rfl, Or.inl rfl⟩
    . next start hstart =>
      split
      . exact ⟨.refl g, rfl, Or.inl rfl⟩
      . split
        . exact ⟨⟨rfl, rfl, rfl⟩, rfl, Or.inr ⟨start, hstart, Or.inl rfl⟩⟩
        . next hconnect =>
          exact ⟨⟨rfl, rfl, rfl⟩, rfl,
            Or.inr ⟨start, hstart, Or.inr (connects_of_connect hconnect)⟩⟩

theorem start_running {g : Game β} {e : IncomingEvent} (h : (g.start e).1.status = .running)
    : (g.status = .running ∧ ((g.start e).1.queues = g.queues ∨ e.start.isSome = true)) ∨
        ∃ start, e.start = some start ∧
          Connects g.localPorts start.ports g.queues (g.start e).1.queues := by
  unfold start at h ⊢
  split at h
  . simp at h
  . next hstop =>
    rw [if_neg hstop]
    split at h
    . exact Or.inl ⟨h, Or.inl rfl⟩
    . next start hstart =>
      split at h
      . next hother =>
        rw [if_pos hother]
        exact Or.inl ⟨h, Or.inl rfl⟩
      . next hother =>
        rw [if_neg hother]
        split at h
        . exact Or.inl ⟨h, Or.inr (by simp [hstart])⟩
        . next hconnect => exact Or.inr ⟨start, hstart, connects_of_connect hconnect⟩

theorem read_event {i rest : Inbound} {e : IncomingEvent} (h : i.read = .event e rest)
    : i.events = e :: rest.events ∧ rest.ending = i.ending := by
  unfold Inbound.read at h
  split at h
  . next heq =>
    rw [InboundRead.event.injEq] at h
    rw [← h.1, ← h.2, heq]
    exact ⟨rfl, rfl⟩
  . split at h
    . simp at h
    . simp at h

theorem read_ended {i rest : Inbound} {failure : RpcFailure} (h : i.read = .ended failure rest)
    : i.events = [] ∧ rest.events = [] := by
  unfold Inbound.read at h
  split at h
  . simp at h
  . next heq =>
    split at h
    . simp at h
    . rw [InboundRead.ended.injEq] at h
      rw [← h.2]
      exact ⟨heq, heq⟩

theorem awaitStart?_cases {g : Game β} {o : Outcome β ClientError Unit}
    (h : g.awaitStart? = some o)
    : g.SameSeat o.game ∧ o.sent = none ∧
        ((o.game.queues = g.queues ∧ o.game.unread = g.unread) ∨
          ∃ e, g.unread = e :: o.game.unread ∧
            (o.game.queues = g.queues ∨
              ∃ start, e.start = some start ∧
                (o.game.queues = ∅ ∨
                  Connects g.localPorts start.ports g.queues o.game.queues))) := by
  unfold awaitStart? at h
  split at h
  . next hnone =>
    rw [Option.some.injEq] at h
    rw [← h]
    exact ⟨.refl g, rfl, Or.inl ⟨rfl, rfl⟩⟩
  . next inbound hinbound =>
    dsimp at h
    split at h
    . simp at h
    . next failure rest hread =>
      rw [Option.some.injEq] at h
      rw [← h]
      refine ⟨⟨rfl, rfl, rfl⟩, rfl, Or.inl ⟨rfl, ?_⟩⟩
      simp [unread, hinbound, read_ended hread]
    . next e rest hread =>
      rw [Option.some.injEq] at h
      rw [← h]
      have hcases := start_cases { g with inbound := some rest } e
      dsimp at hcases ⊢
      refine ⟨⟨hcases.1.consoleId, hcases.1.clientId, hcases.1.localPorts⟩, rfl,
        Or.inr ⟨e, ?_, hcases.2.2⟩⟩
      unfold unread
      rw [hcases.2.1, hinbound]
      exact (read_event hread).1

theorem awaitStart?_running {g : Game β} {o : Outcome β ClientError Unit}
    (h : g.awaitStart? = some o) (hrunning : o.game.status = .running)
    : (g.status = .running ∧
        (o.game.queues = g.queues ∨ ∃ e ∈ g.unread, e.start.isSome = true)) ∨
      ∃ e start, e ∈ g.unread ∧ e.start = some start ∧
        Connects g.localPorts start.ports g.queues o.game.queues := by
  unfold awaitStart? at h
  split at h
  . rw [Option.some.injEq] at h
    subst h
    exact Or.inl ⟨hrunning, Or.inl rfl⟩
  . next inbound hinbound =>
    dsimp at h
    split at h
    . simp at h
    . rw [Option.some.injEq] at h
      subst h
      exact Or.inl ⟨hrunning, Or.inl rfl⟩
    . next e rest hread =>
      rw [Option.some.injEq] at h
      subst h
      have hmem : e ∈ g.unread := by
        unfold unread
        rw [hinbound]
        dsimp
        rw [(read_event hread).1]
        exact List.mem_cons_self
      rcases start_running hrunning with ⟨hrun, hqueues | hstart⟩ | ⟨start, hstart, hconnects⟩
      . exact Or.inl ⟨hrun, Or.inl hqueues⟩
      . exact Or.inl ⟨hrun, Or.inr ⟨e, hmem, hstart⟩⟩
      . exact Or.inr ⟨e, start, hmem, hstart, hconnects⟩

section Ready

/-- The game with a new event stream, which the transport may have given up already. -/
def opened (g : Game β) (inbound : Inbound) (hungUp : Bool) : Game β :=
  { g with inbound := some inbound, hungUp := hungUp }

variable (g : Game β) (inbound : Inbound)

theorem ready_hungUp
    : g.ready (.ok inbound) true
        =
      { game := g.opened inbound true
        result := .error (.rpc WriteFault.closed.failure)
        timed := [.readyWriteStart, .readyWriteFinish] } := rfl

theorem readyAndAwaitStart?_ok
    : g.readyAndAwaitStart? (.ok inbound)
        =
      (g.opened inbound false).awaitStart?.map fun started => { started with
        sent := some g.readyEvent
        timed := [.readyWriteStart, .readyWriteFinish] ++ started.timed } := rfl

theorem readyAndAwaitStart?_hungUp
    : g.readyAndAwaitStart? (.ok inbound) true = some (g.ready (.ok inbound) true) := rfl

end Ready

end Game
end PadRelay
