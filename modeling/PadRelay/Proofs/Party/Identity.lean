import PadRelay.Proofs.Party.Reception
import PadRelay.Proofs.Server.Anonymous

/-!
This module contains the theory of what calls for ports leave of the identity of an emulator. A call that
does not succeed takes nothing away unless its answer names the console of the emulator and somebody else,
and an emulator that has kept its identity can still announce that it is ready.
-/

namespace PadRelay

theorem Console.handle_ready {c : Console} {id : ClientId} {m : Member}
    (hm : c.members.get? id = some m) (hcreated : m.status = .created) {e : OutgoingEvent}
    (hkeys : e.keys = []) (hready : e.ready.isSome = true) (room : Mailroom)
    : c.handle id e room
        =
      ({ c with members := c.members.insert id { m with status := .ready } }, room) := by
  simp [Console.handle, hm, hkeys, hready, Member.markReady, hcreated]

/-- A call for some ports, and what comes of it. -/
structure PlugCall where
  ports : List Port
  answer : Except RpcFailure PlugResponse

namespace Emulator

def view (e : Emulator) : View :=
  { clientId := e.clientId, ports := e.localPorts }

/-- A whole call. Nobody is asked anything if the number of ports is wrong. -/
def plug (e : Emulator) (call : PlugCall) : Except ClientError PlugStatus × Emulator :=
  match e.plugRequest call.ports with
  | .error error => (.error error, e)
  | .ok _ => e.plugged call.answer

def plugAll (e : Emulator) (calls : List PlugCall) : Emulator :=
  calls.foldl (fun e call => (e.plug call).2) e

/-- The call was answered for the console of the emulator, without success, and names somebody else. -/
def Disowns (e : Emulator) (call : PlugCall) : Prop :=
  ∃ request answer, e.plugRequest call.ports = .ok request ∧ call.answer = .ok answer ∧
    answer.consoleId = e.consoleId.value ∧
    (Enumeration.ofNumber answer.status : PlugStatus) ≠ .success ∧ answer.view ≠ e.view

section Plug

variable {e : Emulator} {call : PlugCall} {calls : List PlugCall}

/-- Only an answer that names the console of the emulator is taken over. -/
theorem plug_cases (e : Emulator) (call : PlugCall)
    : (e.plug call).2 = e ∨
        ∃ request answer, e.plugRequest call.ports = .ok request ∧ call.answer = .ok answer ∧
          answer.consoleId = e.consoleId.value ∧
          e.plug call = (.ok (Enumeration.ofNumber answer.status), { e with
            clientId := answer.view.clientId
            localPorts := answer.view.ports }) := by
  unfold plug
  cases hrequest : e.plugRequest call.ports with
  | error error => exact Or.inl rfl
  | ok request =>
    dsimp
    cases hanswer : call.answer with
    | error failure => exact Or.inl rfl
    | ok answer =>
      unfold plugged
      dsimp
      split
      . exact Or.inl rfl
      . next hown => exact Or.inr ⟨request, answer, rfl, rfl, Classical.not_not.1 hown, rfl⟩

theorem plug_eq_self (hfails : (e.plug call).1 ≠ .ok .success) (hspared : ¬ e.Disowns call)
    : (e.plug call).2 = e := by
  rcases plug_cases e call with hsame | ⟨request, answer, hrequest, hanswer, hown, hplug⟩
  . exact hsame
  . rw [hplug] at hfails ⊢
    have hview : answer.view = e.view := by
      apply Classical.byContradiction
      intro hother
      exact hspared ⟨request, answer, hrequest, hanswer, hown, fun heq => hfails (by rw [heq]), hother⟩
    rw [hview]
    rfl

/-- A call that does not succeed costs an emulator its identity exactly if the answer disowns it. -/
theorem view_plug_iff (hfails : (e.plug call).1 ≠ .ok .success)
    : (e.plug call).2.view = e.view ↔ ¬ e.Disowns call := by
  refine ⟨?_, fun hspared => by rw [plug_eq_self hfails hspared]⟩
  rintro hview ⟨request, answer, hrequest, hanswer, hown, _, hother⟩
  have hplug : (e.plug call).2.view = answer.view := by
    simp [plug, hrequest, plugged, hanswer, hown, view, PlugResponse.view]
  exact hother (hplug ▸ hview)

theorem plugAll_eq_self (hfails : ∀ call ∈ calls, (e.plug call).1 ≠ .ok .success)
    (hspared : ∀ call ∈ calls, ¬ e.Disowns call) : e.plugAll calls = e := by
  unfold plugAll
  induction calls with
  | nil => rfl
  | cons call rest ih =>
    rw [List.foldl_cons,
      plug_eq_self (hfails call List.mem_cons_self) (hspared call List.mem_cons_self)]
    exact ih (fun call hcall => hfails call (List.mem_cons_of_mem _ hcall))
      (fun call hcall => hspared call (List.mem_cons_of_mem _ hcall))

end Plug

/-- The server knows an emulator as a client of which it has not heard yet. -/
structure Awaited (e : Emulator) (s : Server) (k : Nat) (c : Console) (m : Member) : Prop where
  console : s.lobby.lookup? e.consoleId = some (k, c)
  member : c.members.get? e.clientId = some m
  ports : m.ports.toList = e.localPorts
  created : m.status = .created
  unheld : m.mailbox = none
  consoleId : e.consoleId.isValid = true
  clientId : e.clientId.isValid = true

section Announce

variable {e : Emulator} {s : Server} {k : Nat} {c : Console} {m : Member}

/-- The ports of a client are what a game needs. -/
theorem Awaited.newGame {β : Type} (h : e.Awaited s k c m) (hexclusive : c.Exclusive)
    : e.newGame (β := β) = .ok {
        consoleId := e.consoleId, clientId := e.clientId, localPorts := m.ports } := by
  have hcontroller : ∀ p ∈ m.ports.toList, p ∈ Port.controllers := fun p hp =>
    hexclusive.controller e.clientId m p h.member (PortSet.mem_toList.1 hp)
  have hlength : m.ports.toList.length ≤ maxPorts :=
    (SortedMap.keys_nodup m.ports).length_le_of_subset hcontroller
  have hports : PortSet.ofList m.ports.toList = m.ports := by
    have := ofList_ports m.ports
    rwa [ofNumber_ports] at this
  have hsize : m.ports.size = m.ports.toList.length := by
    simp [SortedMap.size, PortSet.toList, SortedMap.keys]
  have hany : m.ports.contains .any = false := by
    rw [← Bool.not_eq_true]
    intro hany
    have := hcontroller .any (PortSet.mem_toList.2 hany)
    revert this
    decide
  unfold Emulator.newGame
  rw [h.consoleId, h.clientId, ← h.ports]
  simp [Game.create?, h.consoleId, h.clientId, hports, hsize, hany, Nat.not_lt.2 hlength]

/-- The first event on a new stream makes the client ready, and the stream belongs to it. -/
theorem Awaited.receive_eq (h : e.Awaited s k c m) (hcons : s.Consistent) {event : OutgoingEvent}
    (hkeys : event.keys = [])
    (hready : event.ready = some { consoleId := e.consoleId.value, clientId := e.clientId.value })
    : s.openStream.receive s.streams.length event
        =
      { s.openStream.setStream s.streams.length { sink := none, binding := some ⟨k, e.clientId⟩ } with
        lobby := s.lobby.set k { c with
          members := c.members.insert e.clientId
            { m with status := .ready, mailbox := some s.streams.length } } } := by
  have hconsole := Lobby.lookup?_eq_some h.console
  have hstream : s.openStream.streams[s.streams.length]? = some { sink := some s.room.nextBox } := by
    rw [Server.getElem?_streams_openStream, if_pos rfl]
  have hnames : s.openStream.Names event ⟨k, e.clientId⟩ c m := by
    refine ⟨⟨_, hready, by rw [hconsole.2], rfl⟩, ?_, h.member, h.unheld⟩
    rw [hconsole.2]
    exact h.console
  rcases Server.receive_of_names (Server.consistent_openStream hcons) hstream rfl rfl hnames with
    ⟨_, _, hreceive⟩
  let attached : Console := { c with
    members := c.members.insert e.clientId { m with mailbox := some s.streams.length } }
  have hattached : (s.openStream.attach s.streams.length { sink := some s.room.nextBox }
      ⟨k, e.clientId⟩ c m).lobby.console? k = some attached :=
    Lobby.console?_set_self hconsole.1 _
  have hmember : attached.members.get? e.clientId
      = some { m with mailbox := some s.streams.length } := SortedMap.get?_insert_self _ _ _
  rw [hreceive]
  unfold Server.dispatch
  dsimp only
  rw [hattached]
  dsimp only
  rw [Console.handle_ready hmember h.created hkeys (by rw [hready]; rfl)]
  unfold Server.update Server.attach
  dsimp only [attached]
  rw [Lobby.set_set, SortedMap.insert_insert]
  rfl

theorem Awaited.ready (h : e.Awaited s k c m) (hcons : s.Consistent) {event : OutgoingEvent}
    (hkeys : event.keys = [])
    (hready : event.ready = some { consoleId := e.consoleId.value, clientId := e.clientId.value })
    : ∃ c', (s.openStream.receive s.streams.length event).lobby.console? k = some c' ∧
        c'.members.get? e.clientId
          =
        some { m with status := .ready, mailbox := some s.streams.length } := by
  rw [h.receive_eq hcons hkeys hready]
  exact ⟨_, Lobby.console?_set_self (Lobby.lookup?_eq_some h.console).1 _,
    SortedMap.get?_insert_self _ _ _⟩

end Announce

end Emulator

namespace Server

/-- A server that refuses a request names nobody. -/
theorem view_plugController {s : Server} {request : PlugRequest}
    (h : (Enumeration.ofNumber (s.plugController request).1.status : PlugStatus) ≠ .success)
    : (s.plugController request).1.view = { clientId := {}, ports := [] } := by
  unfold plugController at h ⊢
  split
  . rfl
  . next hlookup =>
    rw [hlookup] at h
    dsimp at h ⊢
    split
    . next fault hplug => cases fault <;> rfl
    . next hplug =>
      rw [hplug] at h
      exact absurd rfl h

theorem consoleId_plugController (s : Server) (request : PlugRequest)
    : (s.plugController request).1.consoleId = request.consoleId := by
  unfold plugController
  split
  . rfl
  . split
    . next fault _ => cases fault <;> rfl
    . rfl

/-- So a refusal takes nothing from an emulator that has no identity yet, and everything from others. -/
theorem disowns_refused_iff {s : Server} {e : Emulator} {ports : List Port} {request : PlugRequest}
    (hrequest : e.plugRequest ports = .ok request)
    (h : (Enumeration.ofNumber (s.plugController request).1.status : PlugStatus) ≠ .success)
    : e.Disowns ⟨ports, .ok (s.plugController request).1⟩ ↔
        e.view ≠ { clientId := {}, ports := [] } := by
  have hview := view_plugController h
  unfold Emulator.Disowns
  dsimp
  constructor
  . rintro ⟨_, answer, _, hanswer, _, _, hother⟩
    rw [Except.ok.injEq] at hanswer
    rw [← hanswer, hview] at hother
    exact Ne.symm hother
  . intro hplugged
    refine ⟨request, _, hrequest, rfl, ?_, h, ?_⟩
    . rw [consoleId_plugController, (plugRequest_eq_ok hrequest).1]
    . rw [hview]
      exact Ne.symm hplugged

end Server

namespace Emulator

/--
Calls that do not succeed leave an emulator what it is as long as no answer disowns it. So the server, if
it has not heard of this client yet, hears on its next stream that it is ready.
-/
theorem identity_kept {β : Type} {e : Emulator} {calls : List PlugCall}
    (hfails : ∀ call ∈ calls, (e.plug call).1 ≠ .ok .success)
    (hspared : ∀ call ∈ calls, ¬ e.Disowns call)
    : (e.plugAll calls).clientId = e.clientId ∧ (e.plugAll calls).localPorts = e.localPorts ∧
        ∀ testMode limit ops k c m,
          let s := (Server.initial testMode limit).run ops
          e.Awaited s k c m → ∃ game : Game β, (e.plugAll calls).newGame = .ok game ∧
            ∃ c', (s.openStream.receive s.streams.length game.readyEvent).lobby.console? k = some c' ∧
              c'.members.get? e.clientId
                =
              some { m with status := .ready, mailbox := some s.streams.length } := by
  rw [plugAll_eq_self hfails hspared]
  refine ⟨rfl, rfl, ?_⟩
  intro testMode limit ops k c m s hawaited
  have hc := (Lobby.lookup?_eq_some hawaited.console).1
  refine ⟨_, hawaited.newGame (Server.exclusive_run testMode limit ops hc), ?_⟩
  exact hawaited.ready (Server.consistent_run testMode limit ops) rfl rfl

/-- Somebody makes a console and plugs port 1 in. -/
def entry : List Server.Operation :=
  [.makeConsole {}, .plugController { consoleId := 1, port1 := 1 }]

def owner : Emulator :=
  { consoleId := ⟨1⟩, clientId := ⟨1⟩, localPorts := [.one] }

/-- A wrong number of ports, a call that fails and an answer for another console. -/
def mishaps : List PlugCall :=
  [⟨[], .ok {}⟩, ⟨[.two], .error { code := .unavailable }⟩,
    ⟨[.two], .ok { consoleId := 2, clientId := 7, status := 5 }⟩]

theorem identity_kept_mishaps
    : (owner.plugAll mishaps).clientId = ⟨1⟩ ∧ (owner.plugAll mishaps).localPorts = [.one] ∧
        ∃ game : Game UInt32, (owner.plugAll mishaps).newGame = .ok game ∧
          ∃ c' m',
            (((Server.initial false none).run entry).openStream.receive 0
              game.readyEvent).lobby.console? 0 = some c' ∧
            c'.members.get? ⟨1⟩ = some m' ∧ m'.status = .ready ∧ m'.mailbox = some 0 := by
  have hfails : ∀ call ∈ mishaps, (owner.plug call).1 ≠ .ok .success := by decide +kernel
  have hspared : ∀ call ∈ mishaps, ¬ owner.Disowns call := by
    intro call hcall
    unfold mishaps at hcall
    simp only [List.mem_cons, List.not_mem_nil, or_false] at hcall
    rintro ⟨request, answer, hrequest, hanswer, hown, _⟩
    rcases hcall with rfl | rfl | rfl
    . simp [plugRequest] at hrequest
    . simp at hanswer
    . rw [Except.ok.injEq] at hanswer
      rw [← hanswer] at hown
      revert hown
      decide
  have hlookup : (((Server.initial false none).run entry).lobby.lookup? ⟨1⟩).any (fun r => r.1 = 0 &&
      (r.2.members.get? ⟨1⟩).any fun m => m = { ports := .ofList [.one], delay := 0 }) = true := by
    decide +kernel
  simp only [Option.any_eq_true, Bool.and_eq_true, decide_eq_true_eq] at hlookup
  rcases hlookup with ⟨⟨k, c⟩, hlookup, rfl, m, hm, rfl⟩
  have hawaited : owner.Awaited ((Server.initial false none).run entry) 0 c
      { ports := .ofList [.one], delay := 0 } :=
    ⟨hlookup, hm, by decide, rfl, rfl, by decide, by decide⟩
  have hstreams : ((Server.initial false none).run entry).streams = [] := by decide +kernel
  rcases identity_kept (β := UInt32) hfails hspared with ⟨hclient, hports, hannounces⟩
  rcases hannounces false none entry 0 c _ hawaited with ⟨game, hgame, c', hc', hm'⟩
  rw [hstreams] at hc' hm'
  exact ⟨hclient, hports, game, hgame, c', _, hc', hm', rfl, rfl⟩

/-- The owner of port 1 asks for it again, and is nobody once the server has refused that. -/
theorem not_identity_kept
    : ¬ ∀ (e : Emulator) (call : PlugCall), (e.plug call).1 ≠ .ok .success →
        (e.plug call).2.clientId = e.clientId ∧ (e.plug call).2.localPorts = e.localPorts := by
  intro h
  let request : PlugRequest := { consoleId := 1, port1 := 1 }
  let answer := (((Server.initial false none).run entry).plugController request).1
  have hfails : (owner.plug ⟨[.one], .ok answer⟩).1 ≠ .ok .success := by decide +kernel
  have hrefused : (Enumeration.ofNumber answer.status : PlugStatus) ≠ .success := by decide +kernel
  have hrequest : owner.plugRequest [.one] = .ok request := rfl
  have hdisowns : owner.Disowns ⟨[.one], .ok answer⟩ :=
    (Server.disowns_refused_iff hrequest hrefused).2 (by decide)
  rcases h owner _ hfails with ⟨hclient, hports⟩
  apply (view_plug_iff hfails).1 _ hdisowns
  unfold view
  rw [hclient, hports]

end Emulator
end PadRelay
