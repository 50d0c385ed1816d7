import PadRelay.Proofs.Party.Identity
import PadRelay.Proofs.Server.Admission
import PadRelay.Session

/-!
This module contains how the emulator of a session gets onto a console that is known: what is asked for,
which answers let it in, and what the server is once it has heard of it.
-/

namespace PadRelay

section Requests

variable {requests : List Port}

theorem PortRequest.isRequest_toPort (r : PortRequest) : r.toPort.isRequest = true := by
  cases r <;> rfl

theorem ClientConfig.isRequest_of_mem {config : ClientConfig} {p : Port} (hp : p ∈ config.ports)
    : p.isRequest = true := by
  unfold ports at hp
  rcases List.mem_map.1 hp with ⟨r, _, rfl⟩
  exact r.isRequest_toPort

/-- At most four requests have a place of their own each. -/
theorem filter_requestedPorts {e : Emulator} {request : PlugRequest}
    (h : e.plugRequest requests = .ok request) (hrequests : ∀ p ∈ requests, p.isRequest = true)
    : (Server.requestedPorts request).filter Port.isRequest = requests := by
  have hunknown : Port.isRequest .unknown = false := rfl
  unfold Emulator.plugRequest at h
  split at h
  . simp at h
  . next hcount =>
    rw [Except.ok.injEq] at h
    rw [← h]
    match requests, hcount, hrequests with
    | [], hcount, _ => simp at hcount
    | [_], _, hrequests => simp_all [Server.requestedPorts, Port.ofNumber_number]
    | [_, _], _, hrequests => simp_all [Server.requestedPorts, Port.ofNumber_number]
    | [_, _, _], _, hrequests => simp_all [Server.requestedPorts, Port.ofNumber_number]
    | [_, _, _, _], _, hrequests => simp_all [Server.requestedPorts, Port.ofNumber_number]
    | _ :: _ :: _ :: _ :: _ :: _, hcount, _ => simp [maxPorts] at hcount

end Requests

namespace Emulator

variable {e : Emulator} {s : Server} {ports : List Port} {k : Nat} {c : Console}

/-- An emulator once it is a client of its console. -/
def settled (e : Emulator) (clientId : ClientId) (ports : List Port) : Emulator :=
  { e with clientId, localPorts := ports }

/-- The server that lets an emulator in waits for it to announce itself. -/
theorem awaited_letIn (hlookup : s.lobby.lookup? e.consoleId = some (k, c))
    (hconsole : e.consoleId.isValid = true)
    (hclient : (⟨s.lobby.clientIds.next⟩ : ClientId).isValid = true) (taken : PortSet)
    (requests : List Port) (delay : Int32)
    : let m : Member := { ports := .ofList (allotted taken requests), delay }
      (e.settled ⟨s.lobby.clientIds.next⟩ (allotted taken requests)).Awaited
        (s.letIn k c (allotted taken requests) delay) k
        { c with members := c.members.insert ⟨s.lobby.clientIds.next⟩ m } m where
  console := Server.lookup?_letIn hlookup _ _
  member := SortedMap.get?_insert_self _ _ _
  ports := toList_ofList (pairwise_allotted _ _)
  created := rfl
  unheld := rfl
  consoleId := hconsole
  clientId := hclient

/-- It announces itself with the first event on its stream. -/
theorem Awaited.receive_letIn {delay : Int32} {m : Member}
    (h : e.Awaited (s.letIn k c ports delay) k
      { c with members := c.members.insert e.clientId m } m)
    (hcons : (s.letIn k c ports delay).Consistent) {event : OutgoingEvent}
    (hkeys : event.keys = [])
    (hready : event.ready = some { consoleId := e.consoleId.value, clientId := e.clientId.value })
    : (s.letIn k c ports delay).openStream.receive s.streams.length event
        =
      let m' := { m with status := .ready, mailbox := some s.streams.length }
      { s with
        lobby := {
          (s.lobby.set k { c with members := c.members.insert e.clientId m' }) with
            clientIds := ⟨s.lobby.clientIds.next + 1⟩ }
        room := s.room.openBox Server.eventBuffer
        streams := s.streams ++ [{ sink := none, binding := some ⟨k, e.clientId⟩ }] } := by
  have hreceive := h.receive_eq hcons hkeys hready
  rw [SortedMap.insert_insert, Server.set_letIn] at hreceive
  apply hreceive.trans
  simp [Server.openStream, Server.setStream, Server.letIn]

end Emulator

namespace ClientConfig

/-- A session can be asked to join with this configuration. -/
structure Sound (config : ClientConfig) : Prop where
  enabled : config.enabled = true
  ports : config.ports ≠ []
  few : config.ports.length ≤ maxPorts
  console : ∀ id, config.consoleId = some id → 0 < id

/-- What is wrong with a configuration, whatever the server is like. -/
inductive Faulty (config : ClientConfig) : ClientError → Prop
  | disabled : config.enabled = false → config.Faulty .disabled
  | ports : config.enabled = true → config.ports.length = 0 ∨ maxPorts < config.ports.length →
    config.Faulty (.invalidPortCount config.ports.length)
  | console {id : Int64} : config.enabled = true →
    ¬ (config.ports.length = 0 ∨ maxPorts < config.ports.length) → config.consoleId = some id →
    ¬ 0 < id → config.Faulty (.invalidConsoleId id)

theorem sound_or_faulty (config : ClientConfig) : config.Sound ∨ ∃ e, config.Faulty e := by
  by_cases henabled : config.enabled = true
  . by_cases hports : config.ports.length = 0 ∨ maxPorts < config.ports.length
    . exact Or.inr ⟨_, .ports henabled hports⟩
    . by_cases hconsole : ∀ id, config.consoleId = some id → 0 < id
      . left
        rw [not_or, Nat.not_lt] at hports
        exact ⟨henabled, fun hnil => hports.1 (by rw [hnil]; rfl), hports.2, hconsole⟩
      . simp only [not_forall] at hconsole
        rcases hconsole with ⟨id, hid, hneg⟩
        exact Or.inr ⟨_, .console henabled hports hid hneg⟩
  . exact Or.inr ⟨_, .disabled (by simpa using henabled)⟩

theorem Sound.count {config : ClientConfig} (h : config.Sound)
    : ¬ (config.ports.length = 0 ∨ maxPorts < config.ports.length) := by
  rw [not_or, Nat.not_lt, List.length_eq_zero_iff]
  exact ⟨h.ports, h.few⟩

/-- The emulator of a session before it is plugged in. -/
def emulator (config : ClientConfig) (consoleId : ConsoleId) : Emulator :=
  { consoleId, delay := config.delayFrames, romHash := config.romHash }

theorem Sound.plugRequest {config : ClientConfig} (h : config.Sound) (id : ConsoleId)
    : ∃ request, (config.emulator id).plugRequest config.ports = .ok request ∧
        request.consoleId = id.value ∧ request.delayFrames = config.delayFrames ∧
        request.romHash = config.romHash ∧
        (Server.requestedPorts request).filter Port.isRequest = config.ports := by
  cases hrequest : (config.emulator id).plugRequest config.ports with
  | error _ =>
    unfold Emulator.plugRequest at hrequest
    rw [if_neg h.count] at hrequest
    simp at hrequest
  | ok request =>
    have hports := filter_requestedPorts hrequest fun p => isRequest_of_mem
    unfold Emulator.plugRequest at hrequest
    rw [if_neg h.count, Except.ok.injEq] at hrequest
    rw [← hrequest] at hports ⊢
    exact ⟨_, rfl, rfl, rfl, rfl, hports⟩

end ClientConfig

namespace Session

variable {β : Type} {config : ClientConfig} {s : Server} {k : Nat} {c : Console} {id : ConsoleId}

/--
A session got onto the console at position `k` of the server `s`, which was `c` until then. The server is
`after` now, and there is nothing new on it but the client and its stream. When it has heard of the
session the client is ready.
-/
structure Entered (config : ClientConfig) (s : Server) (k : Nat) (c : Console) (session : Session β)
    (after : Server) : Prop where
  emulator : session.emulator = {
    consoleId := c.id
    clientId := ⟨s.lobby.clientIds.next⟩
    delay := config.delayFrames
    localPorts := allotted c.occupied config.ports
    romHash := config.romHash }
  stream : session.stream = s.streams.length
  fresh : ∀ j, s.claim? j session.emulator.clientId = none
  server : after = (s.letIn k c session.emulator.localPorts config.delayFrames).openStream
  heard : (session.transmitAll after).2 = { s with
    lobby := {
      (s.lobby.set k { c with members := c.members.insert session.emulator.clientId {
        ports := .ofList session.emulator.localPorts
        delay := config.delayFrames
        status := .ready
        mailbox := some session.stream } }) with
          clientIds := ⟨s.lobby.clientIds.next + 1⟩ }
    room := s.room.openBox Server.eventBuffer
    streams := s.streams ++
      [{ sink := none, binding := some ⟨k, session.emulator.clientId⟩ }] }

theorem enter_eq_ok {e : Emulator} {m : Member} (h : e.Awaited s k c m) (hexclusive : c.Exclusive)
    (created : Bool)
    : enter (β := β) e created s
        =
      (.ok {
        emulator := e
        game := {
          consoleId := e.consoleId
          clientId := e.clientId
          localPorts := m.ports
          inbound := some {} }
        createdConsole := created
        stream := s.streams.length
        outbox := [{ ready := some {
          consoleId := e.consoleId.value, clientId := e.clientId.value } }] }, s.openStream) := by
  unfold enter
  rw [h.newGame hexclusive]
  rfl

section Answer

variable {e : Emulator} {ports : List Port} {request : PlugRequest} {response : PlugResponse}
variable {s' : Server}

theorem plugAndEnter_of_success (hrequest : e.plugRequest ports = .ok request)
    (hanswer : s.plugController request = (response, s'))
    (hid : response.consoleId = e.consoleId.value)
    (hstatus : (Enumeration.ofNumber response.status : PlugStatus) = .success) (created : Bool)
    : plugAndEnter (β := β) e ports created s
        =
      enter (e.settled ⟨response.clientId⟩ (response.ports.map Port.ofNumber)) created s' := by
  simp [plugAndEnter, hrequest, hanswer, Emulator.plugged, hid, hstatus, Emulator.settled]

theorem plugAndEnter_of_failure (hrequest : e.plugRequest ports = .ok request)
    (hanswer : s.plugController request = (response, s'))
    (hid : response.consoleId = e.consoleId.value)
    (hstatus : (Enumeration.ofNumber response.status : PlugStatus) ≠ .success) (created : Bool)
    : plugAndEnter (β := β) e ports created s
        =
      (.error (.plugRejected (Enumeration.ofNumber response.status)), s') := by
  simp [plugAndEnter, hrequest, hanswer, Emulator.plugged, hid]

end Answer

theorem plugAndEnter_of_unknown (hconfig : config.Sound) (hlookup : s.lobby.lookup? id = none)
    (created : Bool)
    : plugAndEnter (β := β) (config.emulator id) config.ports created s
        =
      (.error (.plugRejected .unspecifiedFailure), s) := by
  rcases hconfig.plugRequest id with ⟨request, hrequest, hid, _⟩
  have hlookup : s.lobby.lookup? ⟨request.consoleId⟩ = none := by rw [hid]; exact hlookup
  have hanswer := Server.plugController_of_lookup?_eq_none hlookup
  have hstatus : (Enumeration.ofNumber (Enumeration.number PlugStatus.unspecifiedFailure) : PlugStatus)
      ≠ .success := by decide
  exact plugAndEnter_of_failure hrequest hanswer hid hstatus created

theorem plugAndEnter_of_turnsAway (hconfig : config.Sound)
    (hlookup : s.lobby.lookup? id = some (k, c)) {status : PlugStatus}
    (h : c.TurnsAway config.romHash config.ports status) (created : Bool)
    : plugAndEnter (β := β) (config.emulator id) config.ports created s
        =
      (.error (.plugRejected status), s) := by
  rcases hconfig.plugRequest id with ⟨request, hrequest, hid, _, hhash, hports⟩
  have hlookup : s.lobby.lookup? ⟨request.consoleId⟩ = some (k, c) := by rw [hid]; exact hlookup
  rcases Server.plugController_of_turnsAway hlookup (by rw [hports]; exact hconfig.ports)
    (by rw [hports, hhash]; exact h) with ⟨response, hanswer, hid', hstatus⟩
  have hne := h.ne_success
  rw [← hstatus] at hne ⊢
  exact plugAndEnter_of_failure hrequest hanswer (hid'.trans hid) hne created

theorem plugAndEnter_of_admits {n : Nat} (hs : s.Allotted n) (hconfig : config.Sound)
    (hlookup : s.lobby.lookup? id = some (k, c)) (hid : id.isValid = true)
    (h : c.Admits config.romHash config.ports) (created : Bool)
    : ∃ (session : Session β) (after : Server),
        plugAndEnter (config.emulator id) config.ports created s = (.ok session, after) ∧
        session.createdConsole = created ∧ Entered config s k c session after := by
  rcases hconfig.plugRequest id with
    ⟨request, hrequest, hid', hdelay, hhash, hports⟩
  have hlookup' : s.lobby.lookup? ⟨request.consoleId⟩ = some (k, c) := by rw [hid']; exact hlookup
  have hanswer := Server.plugController_of_admits hlookup' (by rw [hports]; exact hconfig.ports)
    (by rw [hports, hhash]; exact h)
  rw [hports, hdelay] at hanswer
  have hstatus : (Enumeration.ofNumber (Enumeration.number PlugStatus.success) : PlugStatus)
      = .success := by decide
  have hawaited := Emulator.awaited_letIn (e := config.emulator id) hlookup hid hs.isValid_next
    c.occupied config.ports config.delayFrames
  rcases hs.letIn (congrArg (·.2) hanswer) with ⟨hcons, hexclusive⟩
  have hexclusive := hexclusive k _ (Lobby.lookup?_eq_some hawaited.console).1
  have hports : ((allotted c.occupied config.ports).map Port.number).map Port.ofNumber
      = allotted c.occupied config.ports := by
    simp [Function.comp_def]
  have hentered := plugAndEnter_of_success (β := β) hrequest hanswer hid' hstatus created
  dsimp only at hentered
  rw [hports, enter_eq_ok hawaited hexclusive] at hentered
  have hconsole := (Lobby.lookup?_eq_some hlookup).2
  refine ⟨_, _, hentered, rfl, ?_, rfl, hs.fresh, rfl, ?_⟩
  . rw [hconsole]
    rfl
  . exact hawaited.receive_letIn hcons rfl rfl

end Session

end PadRelay
