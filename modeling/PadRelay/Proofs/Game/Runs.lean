import PadRelay.Proofs.Game.Buttons

/-!
This module contains the runs of a game: its emulator calls anything in any order, and the other side may
send anything meanwhile. What a single action can do is said once, in `Acts`.
-/

namespace PadRelay
namespace Game

variable {β : Type}

/-- A call of the emulator, or something that happens to the event stream. -/
inductive Action (β : Type) where
  /--
  `answer` is what came of the call that opens the event stream. The transport may have given the stream
  up before this emulator has announced itself.
  -/
  | ready (answer : Except RpcFailure Inbound) (hungUp : Bool := false)
  | awaitStart
  | readyAndAwaitStart (answer : Except RpcFailure Inbound) (hungUp : Bool := false)
  | put (updates : List (ButtonUpdate β))
  | get (port : Port) (frame : Int32)
  | cancel
  /-- The transport gives up what is written to the event stream. -/
  | hangUp
  | deliver (events : List IncomingEvent)
  | finish (ending : StreamEnd)

namespace Action

/-- The events that arrive with an action. -/
def arriving : Action β → List IncomingEvent
  | ready (.ok inbound) _ | readyAndAwaitStart (.ok inbound) _ => inbound.events
  | deliver events => events
  | _ => []

def awaitsStart : Action β → Bool
  | awaitStart | readyAndAwaitStart _ _ => true
  | _ => false

/-- Whether an action puts or gets buttons of a port. -/
def uses (port : Port) : Action β → Bool
  | put updates => updates.any (·.port = port)
  | get port' _ => port' = port
  | _ => false

theorem uses_of_awaitsStart {a : Action β} (ha : a.awaitsStart = true) (port : Port)
    : a.uses port = false := by
  cases a with
  | awaitStart => rfl
  | readyAndAwaitStart answer hungUp => rfl
  | _ => simp [awaitsStart] at ha

end Action

/-- The game after a call, which has not done anything yet as long as it waits for events. -/
def afterCall {ε α : Type} (g : Game β) : Option (Outcome β ε α) → Game β
  | none => g
  | some o => o.game

theorem mem_unread_deliver {g : Game β} {events : List IncomingEvent} {e : IncomingEvent}
    (he : e ∈ (g.deliver events).unread) : e ∈ g.unread ∨ e ∈ events := by
  unfold deliver unread at he
  unfold unread
  cases hinbound : g.inbound with
  | none => simp [hinbound] at he
  | some inbound =>
    simp only [hinbound, Option.map_some, Inbound.deliver] at he
    split at he
    . exact Or.inl he
    . exact List.mem_append.1 he

theorem unread_finishStream (g : Game β) (ending : StreamEnd)
    : (g.finishStream ending).unread = g.unread := by
  unfold finishStream unread
  cases g.inbound with
  | none => rfl
  | some inbound =>
    dsimp
    unfold Inbound.finish
    split <;> rfl

section Acts

variable [Inhabited β]

/-- What an action can make of the queues. -/
inductive Alters (coder : Coder β) (g : Game β) : Action β → Queues β → Prop
  | rest {a : Action β} : (∀ port, a.uses port = false) → Alters coder g a g.queues
  | connect {a : Action β} {start : StartGame} {queues : Queues β} :
    a.awaitsStart = true → Connects g.localPorts start.ports g.queues queues →
    Alters coder g a queues
  | giveUp {a : Action β} : a.awaitsStart = true → Alters coder g a ∅
  | put (updates : List (ButtonUpdate β)) :
    Alters coder g (.put updates)
      (storeUpdates coder g.consoleId g.localPorts updates g.queues).2
  | getLocal {port : Port} {frame : Int32} :
    g.localPorts.contains port = true →
    Alters coder g (.get port frame) (g.getQueued port frame).2.queues
  | getRemote {port : Port} {frame : Int32} {read queues : Queues β} :
    g.localPorts.contains port = false →
    Stores coder (g.unread.flatMap (·.keys)) g.queues read →
    (∀ p, p ≠ port → queues.get? p = read.get? p) →
    Alters coder g (.get port frame) queues

/-- A game after an action. -/
structure Acts (coder : Coder β) (g : Game β) (a : Action β) (g' : Game β) : Prop where
  seat : g.SameSeat g'
  unread : ∀ e ∈ g'.unread, e ∈ g.unread ∨ e ∈ a.arriving
  queues : Alters coder g a g'.queues

variable {coder : Coder β} {g g' : Game β} {a : Action β}

theorem acts_of_rest (ha : ∀ port, a.uses port = false) (hseat : g.SameSeat g')
    (hunread : ∀ e ∈ g'.unread, e ∈ g.unread ∨ e ∈ a.arriving) (hqueues : g'.queues = g.queues)
    : Acts coder g a g' :=
  ⟨hseat, hunread, hqueues ▸ .rest ha⟩

/-- What comes of waiting with a stream that may have been opened just before. -/
theorem acts_of_awaitStart? (g' : Game β) {o : Outcome β ClientError Unit}
    (ha : a.awaitsStart = true) (hseat : g.SameSeat g')
    (hunread : ∀ e ∈ g'.unread, e ∈ g.unread ∨ e ∈ a.arriving) (hqueues : g'.queues = g.queues)
    (h : g'.awaitStart? = some o) : Acts coder g a o.game := by
  have hrest : Alters coder g a g'.queues := hqueues ▸ .rest (Action.uses_of_awaitsStart ha)
  rcases awaitStart?_cases h with ⟨hseat', _, hcases⟩
  constructor
  . exact hseat.trans hseat'
  . intro e he
    apply hunread
    rcases hcases with ⟨_, heq⟩ | ⟨e', heq, _⟩
    . exact heq ▸ he
    . rw [heq]
      exact List.mem_cons_of_mem _ he
  . rcases hcases with ⟨heq, _⟩ | ⟨e, _, heq | ⟨start, _, hempty | hconnects⟩⟩
    . exact heq ▸ hrest
    . exact heq ▸ hrest
    . exact hempty ▸ .giveUp ha
    . rw [hseat.localPorts, hqueues] at hconnects
      exact .connect ha hconnects

def act (coder : Coder β) (g : Game β) : Action β → Game β
  | .ready answer hungUp => (g.ready answer hungUp).game
  | .awaitStart => g.afterCall g.awaitStart?
  | .readyAndAwaitStart answer hungUp => g.afterCall (g.readyAndAwaitStart? answer hungUp)
  | .put updates => (g.put coder updates).game
  | .get port frame => g.afterCall (g.get? coder port frame)
  | .cancel => g.cancel
  | .hangUp => g.hangUp
  | .deliver events => g.deliver events
  | .finish ending => g.finishStream ending

def run (coder : Coder β) (g : Game β) (actions : List (Action β)) : Game β :=
  actions.foldl (act coder) g

theorem acts_awaitStart (coder : Coder β) (g : Game β)
    : Acts coder g .awaitStart (g.act coder .awaitStart) := by
  unfold act
  cases h : g.awaitStart? with
  | none => exact acts_of_rest (fun _ => rfl) (.refl g) (fun _ he => Or.inl he) rfl
  | some o => exact acts_of_awaitStart? g rfl (.refl g) (fun _ he => Or.inl he) rfl h

theorem acts_ready (coder : Coder β) (g : Game β) (answer : Except RpcFailure Inbound)
    (hungUp : Bool) : Acts coder g (.ready answer hungUp) (g.act coder (.ready answer hungUp)) := by
  cases answer with
  | error failure => exact acts_of_rest (fun _ => rfl) (.refl g) (fun _ he => Or.inl he) rfl
  | ok inbound =>
    cases hungUp <;> exact acts_of_rest (fun _ => rfl) ⟨rfl, rfl, rfl⟩ (fun _ he => Or.inr he) rfl

theorem acts_readyAndAwaitStart (coder : Coder β) (g : Game β)
    (answer : Except RpcFailure Inbound) (hungUp : Bool)
    : Acts coder g (.readyAndAwaitStart answer hungUp)
        (g.act coder (.readyAndAwaitStart answer hungUp)) := by
  have hsame : Acts coder g (.readyAndAwaitStart answer hungUp) g :=
    acts_of_rest (fun _ => rfl) (.refl g) (fun _ he => Or.inl he) rfl
  unfold act
  dsimp
  cases answer with
  | error failure => exact hsame
  | ok inbound =>
    cases hungUp with
    | true =>
      -- Nobody waits for the start on a stream that could not be written to.
      rw [readyAndAwaitStart?_hungUp]
      exact acts_of_rest (fun _ => rfl) ⟨rfl, rfl, rfl⟩ (fun _ he => Or.inr he) rfl
    | false =>
      rw [readyAndAwaitStart?_ok]
      cases h : (g.opened inbound false).awaitStart? with
      | none => exact hsame
      | some o =>
        have hstarts : Acts coder g (.readyAndAwaitStart (.ok inbound)) o.game :=
          acts_of_awaitStart? (g.opened inbound false) rfl ⟨rfl, rfl, rfl⟩
            (fun _ he => Or.inr he) rfl h
        exact hstarts

theorem acts_get (coder : Coder β) (g : Game β) (port : Port) (frame : Int32)
    : Acts coder g (.get port frame) (g.act coder (.get port frame)) := by
  unfold act
  dsimp
  cases hlocal : g.localPorts.contains port with
  | true =>
    have hget : g.afterCall (g.get? coder port frame) = (g.getQueued port frame).2 := by
      simp [get?, hlocal, afterCall]
    have hrest : (g.getQueued port frame).2 =
        { g with queues := (g.getQueued port frame).2.queues } := by
      rcases getQueued_cases g port frame with ⟨_, heq⟩ | ⟨_, _, _, _, _, heq⟩ <;> rw [heq]
    rw [hget]
    refine ⟨?_, ?_, .getLocal hlocal⟩
    . rw [hrest]
      exact ⟨rfl, rfl, rfl⟩
    . rw [hrest]
      exact fun _ he => Or.inl he
  | false =>
    cases h : g.get? coder port frame with
    | none =>
      exact ⟨.refl g, fun _ he => Or.inl he, .getRemote hlocal .refl fun _ _ => rfl⟩
    | some o =>
      rcases got_get? h with ⟨read, hgot, _⟩
      refine ⟨hgot.seat, fun e he => Or.inl (hgot.unread.subset he), .getRemote hlocal hgot.stores ?_⟩
      intro p hp
      show o.game.queues.get? p = read.get? p
      rcases hgot.result with ⟨_, _, heq⟩ | ⟨_, q, q', _, _, _, heq⟩
      . rw [heq]
      . rw [heq, SortedMap.get?_insert_of_ne _ hp]

theorem acts_act (coder : Coder β) (g : Game β) (a : Action β)
    : Acts coder g a (g.act coder a) := by
  cases a with
  | ready answer hungUp => exact acts_ready coder g answer hungUp
  | awaitStart => exact acts_awaitStart coder g
  | readyAndAwaitStart answer hungUp => exact acts_readyAndAwaitStart coder g answer hungUp
  | put updates =>
    unfold act
    dsimp
    rw [put_game]
    exact ⟨⟨rfl, rfl, rfl⟩, fun _ he => Or.inl he, .put updates⟩
  | get port frame => exact acts_get coder g port frame
  | cancel =>
    refine acts_of_rest (fun _ => rfl) ⟨rfl, rfl, rfl⟩ ?_ rfl
    intro e he
    simp [act, cancel, unread] at he
  | hangUp => exact acts_of_rest (fun _ => rfl) ⟨rfl, rfl, rfl⟩ (fun _ he => Or.inl he) rfl
  | deliver events =>
    exact acts_of_rest (fun _ => rfl) ⟨rfl, rfl, rfl⟩ (fun _ he => mem_unread_deliver he) rfl
  | finish ending =>
    refine acts_of_rest (fun _ => rfl) ⟨rfl, rfl, rfl⟩ (fun e he => Or.inl ?_) rfl
    rw [← unread_finishStream g ending]
    exact he

theorem sameSeat_run (coder : Coder β) (g : Game β) (actions : List (Action β))
    : g.SameSeat (g.run coder actions) := by
  induction actions generalizing g with
  | nil => exact .refl g
  | cons a rest ih => exact (acts_act coder g a).seat.trans (ih (g.act coder a))

end Acts

end Game
end PadRelay
